import TChat.Login
import TChat.Server.Accounts
/-!
# Who gets in

From the prompts of one client to those of another, through both parsers, the table and
bcrypt: a login succeeds at the client when the name is registered with a password of the
same hash, and then only.
-/

namespace TChat

open TChat.Common TChat.Lib TChat.Server

/-- A registration among the events `before` has put the name into the table, with a password
of the same hash. -/
def Registered (before : List (Transition Service Served)) (name password : Bytes) : Prop :=
  ∃ t ∈ before, ∃ p request csalt hash,
    handshake? t.input.input t.pre.app = some (p, request) ∧ request.kind = .register ∧
    registeredUser? t = some ⟨cString name, hash⟩ ∧
    Bcrypt.hashText request.password 98 10 csalt = some hash ∧
    Bcrypt.hashText password 98 10 csalt = some hash

/-- The database is for a login: it works, and has the name with such a password from a
registration, or from the start. -/
def Admits (users : Users) (before : List (Transition Service Served)) (calls : LibraryCalls)
    (name password : Bytes) : Prop :=
  calls.prepares = true ∧ calls.steps = true ∧ (Registered before name password ∨
    ∃ user ∈ users.rows, user.username = cString name ∧
      calls.validatePassword password (cString user.passwordHash) = true)

section

variable {now : Time} {users : Users} {before : List (Transition Service Served)} {s : Service}
  {calls : LibraryCalls} {name password : Bytes}

theorem registered_iff (hbcrypt : ∀ t ∈ before, UsesBcrypt t.input.calls)
    (hcalls : UsesBcrypt calls) :
    Registered before name password ↔ ∃ t ∈ before, ∃ user, registeredUser? t = some user ∧
      user.username = cString name ∧
      calls.validatePassword password (cString user.passwordHash) = true := by
  constructor
  · rintro ⟨t, ht, p, request, csalt, hash, hhandshake, -, huser, hhash, hsame⟩
    obtain ⟨garbage, hvalidates⟩ := hcalls.validates
    have hcut : cString hash = hash :=
      cString_eq_self.mpr (Bcrypt.length_hashText (by decide) hhash).2
    have hvalid := Bcrypt.validatePassword_hashText (by decide) (by decide) hhash password garbage
    rw [decide_eq_true hsame] at hvalid
    refine ⟨t, ht, _, huser, rfl, ?_⟩
    rw [hcut]
    exact hvalidates _ _ _ hvalid
  · rintro ⟨t, ht, user, huser, hname, hvalid⟩
    obtain ⟨p, request, hhandshake, hkind, -, hrow⟩ := registeredUser?_eq_some.mp huser
    obtain ⟨csalt, hhash, hvalidates⟩ :=
      validates_generateHash (hbcrypt t ht) hcalls request.password
    obtain ⟨-, -, hcut⟩ := cString_generateHash (hbcrypt t ht) request.password
    rw [hrow] at hvalid
    have hsame := (hvalidates password).mp hvalid
    refine ⟨t, ht, p, request, csalt, _, hhandshake, hkind, ?_, hhash, hsame.trans hhash⟩
    rw [huser, hrow, hcut]
    rw [hrow] at hname
    dsimp only at hname
    rw [hname]

theorem authorized_iff (hrun : ServiceRun now users before s)
    (hbcrypt : ∀ t ∈ before, UsesBcrypt t.input.calls) (hcalls : UsesBcrypt calls) :
    verifyClient calls s.users name password = .authorized ↔
      Admits users before calls name password := by
  have haccepts : Accepts calls s.users ⟨.login, name, password, []⟩ ↔
      verifyClient calls s.users name password = .authorized := accepts_login rfl
  rw [← haccepts, Accepts, Admits, registered_iff hbcrypt hcalls, rows_of_run hrun]
  dsimp only
  apply and_congr_right'
  apply and_congr_right'
  simp only [List.mem_append, List.mem_filterMap]
  constructor
  · rintro ⟨user, hold | ⟨t, ht, huser⟩, hname, hvalid⟩
    · exact .inr ⟨user, hold, hname, hvalid⟩
    · exact .inl ⟨t, ht, user, huser, hname, hvalid⟩
  · rintro (⟨t, ht, user, huser, hname, hvalid⟩ | ⟨user, hold, hname, hvalid⟩)
    · exact ⟨user, .inr ⟨t, ht, huser⟩, hname, hvalid⟩
    · exact ⟨user, .inl hold, hname, hvalid⟩

end

/-- For every name and password that can be typed, every way of cutting the packet and the
reply, and any other events in between: once the reply has arrived, `login_client` succeeds
if and only if the database works and the name has a password of the same hash, from a
registration before the login or from the start. -/
theorem loginClient_success_iff {now : Time} {users : Users}
    {history : List (Transition Service Served)} {s : Service}
    (hrun : ServiceRun now users history s)
    (hbcrypt : ∀ t ∈ history, UsesBcrypt t.input.calls) (e : Exchange .login)
    (hserver : e.history = history.map appTransition) (h : e.Replied) :
    ∃ result connection before t after,
      Client.loginClient e.username e.password e.writes e.reads e.client =
        some (result, connection, e.calls) ∧
      history = before ++ t :: after ∧
      handshake? t.input.input t.pre.app = some (e.connection, e.request .login) ∧
      (result.status = .success ↔ Admits users before t.input.calls
        (e.request .login).username (e.request .login).password) := by
  obtain ⟨reply, more, hqueued, harrived⟩ := h
  obtain ⟨t', request, hhandles⟩ :=
    e.exists_handles e.isHandshake_login (by rw [hqueued]; simp)
  obtain ⟨rfl, hwritten, -⟩ := hhandles.handled e.isHandshake_login
  obtain ⟨others, hfirst⟩ := hhandles.loginReply_first
  rw [hqueued, List.cons.injEq] at hfirst
  obtain ⟨connection, hclient⟩ := e.loginClient_reply hwritten (hfirst.1 ▸ harrived)
  obtain ⟨hmem, hhandshake⟩ := hhandles
  rw [hserver] at hmem
  obtain ⟨t, ht, rfl⟩ := List.mem_map.mp hmem
  obtain ⟨before, after, rfl⟩ := List.append_of_mem ht
  refine ⟨_, connection, before, t, after, hclient, rfl, hhandshake, ?_⟩
  rw [(loginOutcome_status _ _ _).1]
  exact authorized_iff hrun.split.1 (fun t₀ ht₀ => hbcrypt t₀ (List.mem_append_left _ ht₀))
    (hbcrypt t ht)

/-! ## A run in which a registered user gets in -/

def loginAnswer : Bytes :=
  createPacketStream .ack (literal "OK|" ++ generateToken Input.sample.random)

theorem step_flushes {i : Input} {s : ServerApp} {p : ConnectionPtr}
    {c c' : Server.ClientConnection} {calls : List SslWriteCall} (hwf : WellFormed s)
    (hp : s.deref p = some c) (hpossible : i.Possible s) (hevent : i.event = .write p.fd)
    (hreading : c.readWaitingForWrite = false) (hwriting : c.writeWaitingForRead = false)
    (hflush : Server.flushWrite c i.sslWrite = some (.queueEmpty, c', calls))
    (hkept : c'.node = c.node ∧ c'.fd = c.fd ∧ c'.status = .authenticated ∧
      c'.readWaitingForWrite = false ∧ c'.writeWaitingForRead = false) :
    ∃ s', step i s = .ok s' ∧ callsOn p s'.actions = calls ∧ queuedOn p s'.actions = [] := by
  obtain ⟨hnode, hfd, hstatus, hreading', hwriting'⟩ := hkept
  have hbegin : (s.beginEvent i.now).deref p = some c := hp
  have hstored : (((s.beginEvent i.now).store p c').log
      (calls.map (.sslWrite p))).deref p = some c' := by
    rw [ServerApp.deref_log]
    exact ServerApp.deref_store_self hbegin hnode
  have hresult : (((s.beginEvent i.now).store p c').log
      (calls.map (.sslWrite p))).handleFlushResult i .queueEmpty p = .ok _ :=
    ServerApp.handleFlushResult_eq hstored (hfd.trans (hwf.deref_ok hp).fd_eq) hreading'
      (by decide) (by simp [hstatus]) (by simp [hwriting'])
  have hstep : step i s = (((s.beginEvent i.now).store p c').log
      (calls.map (.sslWrite p))).handleFlushResult i .queueEmpty p := by
    rw [step, if_pos hpossible, ServerApp.dispatch, hevent]
    dsimp only
    rw [ServerApp.findConnection_of_deref hbegin]
    simp only [ServerApp.writeEvent, ServerApp.load_eq hbegin, bind, Except.bind, hreading,
      hwriting, Bool.and_self, Bool.false_eq_true, if_false, ServerApp.flush, hflush]
  refine ⟨_, hstep.trans hresult, ?_⟩
  rw [ServerApp.switchWriteEvent_eq]
  simp [callsOn_sslWrites, ServerApp.beginEvent, ServerApp.log, ServerApp.store]

theorem loggingIn_authorized {s s' : Service} (hwf : WellFormed s.app)
    (hp : s.app.deref ⟨6, 1⟩ = some (.create 1 6 (some 1) 0))
    (hserve : serve loggingIn s = .ok s')
    (hverify : verifyClient bcryptCalls s.users laterLogin.username laterLogin.password =
      .authorized) :
    delivery ⟨6, 1⟩ (appTransition ⟨s, loggingIn, s'⟩) =
        some (loginPacket (literal "c") (literal "y")) ∧
      queuedOn ⟨6, 1⟩ s'.app.actions = [loginAnswer] ∧ callsOn ⟨6, 1⟩ s'.app.actions = [] ∧
      s'.app.deref ⟨6, 1⟩ = some (Server.queueWrite
        ((Server.ClientConnection.create 1 6 (some 1) 0).authenticate [] 0) loginAnswer) := by
  have hstep := step_of_serve hserve
  have hpossible := possible_of_step hstep
  have hshake := loggingIn_handshakes s.users
  have hdelivered : delivery ⟨6, 1⟩ (appTransition ⟨s, loggingIn, s'⟩) =
      some (loginPacket (literal "c") (literal "y")) :=
    delivery_eq_some.mpr ⟨_, hp, loggingIn_receives s.users⟩
  have hlookups := lookups_of_login hwf hp hshake rfl hverify hpossible hstep
  rw [step_loggedIn hwf hp hshake hpossible rfl hverify, Except.ok.injEq] at hstep
  refine ⟨hdelivered, ?_, ?_, hlookups.1⟩
  · rw [← hstep, ServerApp.actions_replied]
    simp [ClientManager.addSession]
    rfl
  · rw [← hstep, ServerApp.actions_replied]
    simp [ClientManager.addSession]

/-- "c" registers on one connection and logs in on another one, which is written to. -/
theorem exists_admitted_run : ∃ history s, ServiceRun 0 noUsers history s ∧
    (∀ t ∈ history, t.input.calls = bcryptCalls) ∧
    (pieces ⟨6, 1⟩ (history.map appTransition)).flatten =
      createPacketStream .login (Client.credentials (literal "c") (literal "y")) ∧
    queuedDuring ⟨6, 1⟩ (history.map appTransition) = [loginAnswer] ∧
    accepted (callsDuring ⟨6, 1⟩ (history.map appTransition)) = loginAnswer := by
  obtain ⟨first, t, last, s, user, hrun, hclock, hp, -, hhandshake, huser, hfirst, ht, hlast,
    hsilent⟩ := exists_registered (fun history => decide (
      pieces ⟨6, 1⟩ (history.map appTransition) = [] ∧
      queuedDuring ⟨6, 1⟩ (history.map appTransition) = [] ∧
      callsDuring ⟨6, 1⟩ (history.map appTransition) = [])) (by decide +kernel)
  rw [decide_eq_true_eq] at hsilent
  obtain ⟨hpieces, hqueued, hcalls⟩ := hsilent
  have hwf := wellFormed_of_run (serverRun_of_service hrun)
  obtain ⟨-, s', hserve⟩ := exists_loggingIn hwf hclock hp
  have hrun' := hrun.next hserve
  obtain ⟨csalt, hstored, haccepted⟩ := @verifyClient_registered _ _ _ [first]
    [last, ⟨s, loggingIn, s'⟩] _ _ ⟨s, loggingIn, s'⟩ _ _ laterLogin _ hrun' rfl (by simp)
    hhandshake huser rfl (ht ▸ usesBcrypt_bcryptCalls) usesBcrypt_bcryptCalls rfl rfl
  obtain ⟨hdelivered, hanswer, hnone, hp'⟩ :=
    loggingIn_authorized hwf hp hserve (haccepted.mpr hstored)
  -- the answer is written
  have hwf' := wellFormed_of_run (serverRun_of_service hrun')
  have hclock' := (outcome_of_run (serverRun_of_service hrun) (step_of_serve hserve)).clock
  have hflush := show Server.flushWrite (Server.queueWrite
      ((Server.ClientConnection.create 1 6 (some 1) 0).authenticate [] 0) loginAnswer) [.wrote 23] =
        some (.queueEmpty, _, _) from rfl
  let i : Served := ⟨writing 6 [.wrote 23], bcryptCalls⟩
  have hpossible : (i.against s'.users).Possible s'.app := ⟨hclock'.le, nofun⟩
  obtain ⟨app, happ, hwritten, hsilent⟩ := step_flushes (i := i.against s'.users) hwf' hp'
    hpossible rfl rfl rfl hflush ⟨rfl, rfl, rfl, rfl, rfl⟩
  have hserve' : ∃ s'', serve i s' = .ok s'' ∧ s''.app = app := by
    rw [serve, happ]
    exact ⟨_, rfl, rfl⟩
  obtain ⟨s'', hserve', rfl⟩ := hserve'
  have hnothing : delivery ⟨6, 1⟩ (appTransition ⟨s', i, s''⟩) = none := by
    simp [delivery, appTransition, hp', i, Served.against, writing, Input.sample, readOutcome]
  have hmap : ∀ (before : List (Transition Service Served)) t t',
      (before ++ [t] ++ [t']).map appTransition =
        before.map appTransition ++ [appTransition t] ++ [appTransition t'] := by simp
  refine ⟨_, s'', hrun'.next hserve', ?_, ?_, ?_, ?_⟩
  · simp [hfirst, ht, hlast, loggingIn, i]
  · rw [hmap, pieces_concat, pieces_concat, hpieces, hdelivered, hnothing]
    rfl
  · rw [hmap, queuedDuring_append, queuedDuring_append, hqueued]
    simp [appTransition, hanswer, hsilent]
  · rw [hmap, callsDuring_append, callsDuring_append, hcalls]
    simp [appTransition, hnone, hwritten]
    rfl

/-- `loginClient_success_iff` for "c": the registration is what lets it in. -/
theorem loginClient_success_iff_c : ∃ history s, ServiceRun 0 noUsers history s ∧
    ∃ (e : Exchange .login) (result : Client.LoginResult)
      (connection : Client.ClientConnection) (before : List (Transition Service Served)),
      e.username = literal "c" ∧ e.password = literal "y" ∧
      Client.loginClient e.username e.password e.writes e.reads e.client =
        some (result, connection, e.calls) ∧ before <+: history ∧
      result.status = .success ∧ Registered before (literal "c") (literal "y") := by
  obtain ⟨history, s, hrun, hcalls, hpieces, hqueued, haccepted⟩ := exists_admitted_run
  have hflush := show Client.flushWrite (Client.queueWrite (.establish 3 0 0)
      (createPacketStream .login (Client.credentials (literal "c") (literal "y"))))
        [.wrote 15] = some (.queueEmpty, _, _) from rfl
  let e : Exchange .login :=
    { username := literal "c"
      password := literal "y"
      username_le := by decide
      password_le := by decide
      client := .establish 3 0 0
      established := ⟨3, 0, 0, by decide, rfl⟩
      writes := [.wrote 15]
      writeStatus := .queueEmpty
      flushed := _
      calls := _
      flush := hflush
      reads := [.received loginAnswer]
      deliverable := by
        intro piece hpiece
        rw [List.mem_singleton, SslRead.received.injEq] at hpiece
        rw [hpiece]
        decide
      start := 0
      history := history.map appTransition
      server := s.app
      run := serverRun_of_service hrun
      connection := ⟨6, 1⟩
      sent := by
        rw [hpieces]
        exact List.prefix_rfl
      answered := by
        rw [haccepted]
        exact List.prefix_rfl }
  have hreplied : e.Replied := ⟨loginAnswer, [], hqueued, List.prefix_rfl⟩
  have hbcrypt : ∀ t ∈ history, UsesBcrypt t.input.calls :=
    fun t ht => hcalls t ht ▸ usesBcrypt_bcryptCalls
  obtain ⟨result, connection, before, t, after, hclient, hhistory, -, hsuccess⟩ :=
    loginClient_success_iff hrun hbcrypt e rfl hreplied
  have hreturned := show Client.loginClient e.username e.password e.writes e.reads e.client =
    some (⟨.success, literal "c", generateToken Input.sample.random⟩, _, e.calls) from rfl
  rw [hclient, Option.some.injEq, Prod.mk.injEq] at hreturned
  have hstatus : result.status = .success := by rw [hreturned.1]
  obtain ⟨-, -, hregistered | ⟨user, hrow, -⟩⟩ := hsuccess.mp hstatus
  · exact ⟨history, s, hrun, e, result, connection, before, rfl, rfl, hclient,
      hhistory ▸ List.prefix_append _ _, hstatus, hregistered⟩
  · simp [noUsers] at hrow

end TChat
