import TChat.Bcrypt.Passwords
import TChat.Server.Identity
/-!
# Accounts

What the table of users holds after a run, and who logs in against it when the hashes in it
are those of bcrypt.
-/

namespace TChat.Server

open TChat.Common TChat.Lib

/-- The row that an event inserts, when it completes a Register packet that succeeds. -/
def registeredUser? (t : Transition Service Served) : Option User :=
  match handshake? t.input.input t.pre.app with
  | some (_, request) =>
      if request.kind = .register ∧
          (registerClient t.input.calls t.pre.users request.username request.password).1 =
            .clientRegistered then
        some ⟨cString request.username, cString (t.input.calls.generateHash request.password)⟩
      else none
  | none => none

/-- The two functions of bcrypt are the ones that are called: hashes are made with the
default of ten rounds, from some random bytes and over some memory. -/
structure UsesBcrypt (calls : LibraryCalls) : Prop where
  generates : ∃ seed garbage, ∀ password,
    Bcrypt.generateHash password 10 seed garbage = some (calls.generateHash password)
  validates : ∃ garbage, ∀ password hash accepted,
    Bcrypt.validatePassword password hash garbage = some accepted →
      calls.validatePassword password hash = accepted

/-! ## The table over a run -/

section

variable {calls : LibraryCalls} {now : Time} {users : Users} {username password : Bytes}
  {history before after : List (Transition Service Served)} {s : Service}
  {t : Transition Service Served}

theorem registerClient_rows :
    (registerClient calls users username password).2.rows = users.rows ++
      if (registerClient calls users username password).1 = .clientRegistered then
        [⟨cString username, cString (calls.generateHash password)⟩]
      else [] := by
  unfold registerClient Users.insert
  dsimp only
  split_ifs <;> simp_all

theorem rows_of_serve (hstep : serve t.input t.pre = .ok t.post) :
    t.post.users.rows = t.pre.users.rows ++ (registeredUser? t).toList := by
  unfold serve at hstep
  cases happ : step (t.input.against t.pre.users) t.pre.app with
  | error fault => simp [happ, Except.map] at hstep
  | ok app =>
      rw [happ] at hstep
      rw [← Except.ok.inj hstep, registeredUser?]
      dsimp only
      cases hhandshake : handshake? t.input.input t.pre.app with
      | none => simp
      | some asked =>
          by_cases hkind : asked.2.kind = .register
          · simp only [hkind, if_true, true_and, registerClient_rows]
            split_ifs <;> rfl
          · simp [hkind]

/-- The table holds what it held at the start, and the registrations in their order. -/
theorem rows_of_run (hrun : ServiceRun now users history s) :
    s.users.rows = users.rows ++ history.filterMap registeredUser? := by
  induction hrun with
  | start => simp
  | next hrun hstep ih =>
      have hlast := @rows_of_serve ⟨_, _, _⟩ hstep
      dsimp only at hlast
      rw [hlast, ih, List.filterMap_append, List.append_assoc]
      congr 2

theorem rows_of_laterRun {s' : Service} (hlater : Run serve s after s') :
    s.users.rows ⊆ s'.users.rows := by
  induction hlater with
  | start => exact List.Subset.refl _
  | next _ hstep ih =>
      have hlast := @rows_of_serve ⟨_, _, _⟩ hstep
      dsimp only at hlast
      rw [hlast]
      exact List.subset_append_of_subset_left _ ih

theorem registeredUser?_eq_some {user : User} :
    registeredUser? t = some user ↔ ∃ p request,
      handshake? t.input.input t.pre.app = some (p, request) ∧ request.kind = .register ∧
      (registerClient t.input.calls t.pre.users request.username request.password).1 =
        .clientRegistered ∧
      user = ⟨cString request.username, cString (t.input.calls.generateHash request.password)⟩ := by
  rw [registeredUser?]
  cases hhandshake : handshake? t.input.input t.pre.app with
  | none => simp
  | some asked =>
      obtain ⟨p, request⟩ := asked
      dsimp only
      split_ifs with h
      · simp [h, eq_comm]
      · simp only [Option.some.injEq, Prod.mk.injEq, false_iff, not_exists]
        rintro q request' ⟨⟨rfl, rfl⟩, hkind, hregistered, -⟩
        exact h ⟨hkind, hregistered⟩

end

/-! ## The rows that bcrypt wrote -/

section

variable {calls calls' : LibraryCalls} {username password : Bytes} {users : Users}

theorem cString_generateHash (h : UsesBcrypt calls) (password : Bytes) :
    ∃ csalt, Bcrypt.hashText password 98 10 csalt = some (calls.generateHash password) ∧
      cString (calls.generateHash password) = calls.generateHash password := by
  obtain ⟨seed, garbage, hgenerates⟩ := h.generates
  have hhash := hgenerates password
  rw [Bcrypt.generateHash_eq] at hhash
  exact ⟨seed, hhash, cString_eq_self.mpr (Bcrypt.length_hashText (by decide) hhash).2⟩

theorem validates_generateHash (h : UsesBcrypt calls) (h' : UsesBcrypt calls')
    (password : Bytes) :
    ∃ csalt, Bcrypt.hashText password 98 10 csalt = some (calls.generateHash password) ∧
      ∀ password', calls'.validatePassword password'
          (cString (cString (calls.generateHash password))) = true ↔
        Bcrypt.hashText password' 98 10 csalt = Bcrypt.hashText password 98 10 csalt := by
  obtain ⟨csalt, hhash, hcut⟩ := cString_generateHash h password
  obtain ⟨garbage, hvalidates⟩ := h'.validates
  refine ⟨csalt, hhash, fun password' => ?_⟩
  have hvalid := Bcrypt.validatePassword_hashText (by decide) (by decide) hhash password' garbage
  rw [hcut, hcut, hvalidates _ _ _ hvalid, decide_eq_true_eq, hhash]

end

/-! ## A run in which a user registers and logs in -/

def bcryptCalls : LibraryCalls where
  opens := true
  prepares := true
  steps := true
  generateHash := fun password =>
    (Bcrypt.generateHash password 10 Bcrypt.zeroSalt Bcrypt.zeroSalt).getD []
  validatePassword := fun password hash =>
    (Bcrypt.validatePassword password hash Bcrypt.zeroSalt).getD false

theorem generateHash_bcryptCalls {password hash : Bytes}
    (h : Bcrypt.hashText password 98 10 Bcrypt.zeroSalt = some hash) :
    bcryptCalls.generateHash password = hash := by
  have hgenerated : Bcrypt.generateHash password 10 Bcrypt.zeroSalt Bcrypt.zeroSalt =
      some hash := by
    rw [Bcrypt.generateHash_eq]
    exact h
  simp only [bcryptCalls, hgenerated, Option.getD_some]

theorem usesBcrypt_bcryptCalls : UsesBcrypt bcryptCalls where
  generates := by
    refine ⟨Bcrypt.zeroSalt, Bcrypt.zeroSalt, fun password => ?_⟩
    obtain ⟨hash, hhash⟩ := Bcrypt.hashText_isSome password 98 10 Bcrypt.zeroSalt
    rw [generateHash_bcryptCalls hhash, Bcrypt.generateHash_eq]
    exact hhash
  validates := by
    refine ⟨Bcrypt.zeroSalt, fun password hash accepted h => ?_⟩
    simp only [bcryptCalls, h, Option.getD_some]

def noUsers : Users := ⟨[], List.nodup_nil⟩

def registration : HandshakeRequest := ⟨.register, literal "c", literal "y", []⟩

def laterLogin : HandshakeRequest := ⟨.login, literal "c", literal "y", []⟩

theorem exists_step_login {i : Input} {s : ServerApp} {c : ClientConnection}
    {request : HandshakeRequest} {rest : Bytes} {p : ConnectionPtr} (hwf : WellFormed s)
    (hp : s.deref p = some c) (h : Handshakes i c request rest) (hpossible : i.Possible s)
    (hkind : request.kind = .login) : ∃ s', step i s = .ok s' := by
  by_cases hverify : i.verifyClient request.username request.password = .authorized
  · exact ⟨_, step_loggedIn hwf hp h hpossible hkind hverify⟩
  · exact ⟨_, step_loginRefused hwf hp h hpossible hkind rfl hverify⟩

/-- "c" registers, and another connection is accepted. -/
def registering : List Served :=
  [⟨accepting 5, bcryptCalls⟩,
    ⟨receiving 5 (createPacketStream .register (literal "c|y")), bcryptCalls⟩,
    ⟨accepting 6, bcryptCalls⟩]

/-- What is seen of these events without computing a hash. -/
def isRegistering (history : List (Transition Service Served)) (s : Service) : Bool :=
  match history with
  | [first, t, _] => decide (s.app.clock = 0 ∧
      s.app.deref ⟨6, 1⟩ = some (.create 1 6 (some 1) 0) ∧
      handshake? first.input.input first.pre.app = none ∧
      handshake? t.input.input t.pre.app = some (⟨5, 0⟩, registration) ∧
      (registeredUser? t).isSome)
  | _ => false

theorem exists_registered (property : List (Transition Service Served) → Bool)
    (h : Run.reaches serve registering ⟨initialState 0, noUsers⟩
      (fun history s => isRegistering history s && property history) = true) :
    ∃ first t last s user, ServiceRun 0 noUsers [first, t, last] s ∧ s.app.clock = 0 ∧
      s.app.deref ⟨6, 1⟩ = some (.create 1 6 (some 1) 0) ∧ registeredUser? first = none ∧
      handshake? t.input.input t.pre.app = some (⟨5, 0⟩, registration) ∧
      registeredUser? t = some user ∧ first.input.calls = bcryptCalls ∧
      t.input.calls = bcryptCalls ∧ last.input.calls = bcryptCalls ∧
      property [first, t, last] = true := by
  obtain ⟨history, s, hrun, hinputs, h⟩ := Run.exists_of_execute_inputs _ _ _ _ h
  obtain ⟨first, others, rfl, hfirst, hothers⟩ := List.map_eq_cons_iff.mp hinputs
  obtain ⟨t, lasts, rfl, ht, hlasts⟩ := List.map_eq_cons_iff.mp hothers
  obtain ⟨last, nothing, rfl, hlast, hnothing⟩ := List.map_eq_cons_iff.mp hlasts
  obtain rfl := List.map_eq_nil_iff.mp hnothing
  rw [Bool.and_eq_true, isRegistering, decide_eq_true_eq] at h
  obtain ⟨⟨hclock, hp, hnone, hhandshake, hregistered⟩, hproperty⟩ := h
  obtain ⟨user, huser⟩ := Option.isSome_iff_exists.mp hregistered
  refine ⟨first, t, last, s, user, hrun, hclock, hp, ?_, hhandshake, huser, by rw [hfirst],
    by rw [ht], by rw [hlast], hproperty⟩
  rw [registeredUser?, hnone]

def loggingIn : Served := ⟨receiving 6 (loginPacket (literal "c") (literal "y")), bcryptCalls⟩

theorem loggingIn_receives (users : Users) : Receives (loggingIn.against users)
    (.create 1 6 (some 1) 0) (loginPacket (literal "c") (literal "y")) :=
  ⟨⟨rfl, .inl ⟨rfl, rfl⟩⟩, by decide, rfl, by decide, by decide⟩

theorem loggingIn_handshakes (users : Users) :
    Handshakes (loggingIn.against users) (.create 1 6 (some 1) 0) laterLogin [] :=
  ⟨_, loggingIn_receives users, rfl, by decide +kernel⟩

theorem exists_loggingIn {s : Service} (hwf : WellFormed s.app) (hclock : s.app.clock = 0)
    (hp : s.app.deref ⟨6, 1⟩ = some (.create 1 6 (some 1) 0)) :
    handshake? loggingIn.input s.app = some (⟨6, 1⟩, laterLogin) ∧
      ∃ s', serve loggingIn s = .ok s' := by
  have hshake := loggingIn_handshakes s.users
  have hpossible : (loggingIn.against s.users).Possible s.app :=
    receiving_possible hclock 6 (loginPacket (literal "c") (literal "y"))
  obtain ⟨app, happ⟩ := exists_step_login hwf hp hshake hpossible rfl
  refine ⟨(handshake?_eq_some (i := loggingIn.against s.users) hwf).mpr ⟨_, _, hp, hshake⟩, ?_⟩
  rw [serve, happ]
  exact ⟨_, rfl⟩

theorem exists_registered_run : ∃ first t last s' s user,
    ServiceRun 0 noUsers [first, t, last, ⟨s', loggingIn, s⟩] s ∧
    registeredUser? first = none ∧
    handshake? t.input.input t.pre.app = some (⟨5, 0⟩, registration) ∧
    registeredUser? t = some user ∧
    handshake? loggingIn.input s'.app = some (⟨6, 1⟩, laterLogin) ∧
    t.input.calls = bcryptCalls := by
  obtain ⟨first, t, last, s', user, hrun, hclock, hp, hnone, hhandshake, huser, -, ht, -, -⟩ :=
    exists_registered (fun _ => true) (by decide +kernel)
  obtain ⟨hlogin, s, hserve⟩ :=
    exists_loggingIn (wellFormed_of_run (serverRun_of_service hrun)) hclock hp
  exact ⟨first, t, last, s', s, user, hrun.next hserve, hnone, hhandshake, huser, hlogin, ht⟩

/-! ## Registering and logging in -/

section

variable {now : Time} {users : Users} {history before after : List (Transition Service Served)}
  {s : Service} {t t' : Transition Service Served} {p p' : ConnectionPtr}
  {request request' : HandshakeRequest} {user : User}

/-- A Register packet succeeds if and only if the database works, and neither the table at
the start nor an earlier registration of the run has the name. -/
theorem register_succeeds_iff (hrun : ServiceRun now users history s)
    (hhistory : history = before ++ t :: after)
    (hhandshake : handshake? t.input.input t.pre.app = some (p, request))
    (hkind : request.kind = .register) :
    (∃ user, registeredUser? t = some user) ↔
      t.input.calls.opens ∧ t.input.calls.prepares ∧ t.input.calls.steps ∧
        (∀ user ∈ users.rows, user.username ≠ cString request.username) ∧
        ∀ t' ∈ before, ∀ user, registeredUser? t' = some user →
          user.username ≠ cString request.username := by
  subst hhistory
  have hrows := rows_of_run hrun.split.1
  have hsucceeds : (∃ user, registeredUser? t = some user) ↔
      Accepts t.input.calls t.pre.users request := by
    rw [accepts_register hkind]
    constructor
    · rintro ⟨user, huser⟩
      obtain ⟨q, request', hhandshake', -, hregistered, -⟩ := registeredUser?_eq_some.mp huser
      rw [hhandshake, Option.some.injEq, Prod.mk.injEq] at hhandshake'
      rw [hhandshake'.2]
      exact hregistered
    · intro hregistered
      exact ⟨_, registeredUser?_eq_some.mpr ⟨p, request, hhandshake, hkind, hregistered, rfl⟩⟩
  rw [hsucceeds, Accepts, hkind, hrows]
  simp only [List.mem_append, List.mem_filterMap, or_imp, forall_and, forall_exists_index,
    and_imp]
  constructor
  · rintro ⟨hopens, hprepares, hsteps, hold, hnew⟩
    exact ⟨hopens, hprepares, hsteps, hold, fun t' ht' user huser => hnew user t' ht' huser⟩
  · rintro ⟨hopens, hprepares, hsteps, hold, hnew⟩
    exact ⟨hopens, hprepares, hsteps, hold, fun user t' ht' huser => hnew t' ht' user huser⟩

theorem register_succeeds_c : ∃ history s t hash, ServiceRun 0 noUsers history s ∧
    t ∈ history ∧ Bcrypt.hashText (literal "y") 98 10 Bcrypt.zeroSalt = some hash ∧
    registeredUser? t = some ⟨literal "c", hash⟩ := by
  obtain ⟨first, t, last, s', s, -, hrun, hnone, hhandshake, -, -, hcalls⟩ :=
    exists_registered_run
  have hsucceeds := (@register_succeeds_iff _ _ _ [first] [last, ⟨s', loggingIn, s⟩] _ _ _ _
    hrun rfl hhandshake rfl).mpr ⟨by rw [hcalls]; rfl, by rw [hcalls]; rfl, by rw [hcalls]; rfl,
      by simp [noUsers], by simp [hnone]⟩
  obtain ⟨user, huser⟩ := hsucceeds
  obtain ⟨q, asked, hhandshaked, -, -, hrow⟩ := registeredUser?_eq_some.mp huser
  rw [hhandshake, Option.some.injEq, Prod.mk.injEq] at hhandshaked
  obtain ⟨-, rfl⟩ := hhandshaked
  obtain ⟨hash, hhash⟩ := Bcrypt.hashText_isSome (literal "y") 98 10 Bcrypt.zeroSalt
  have hgenerated : bcryptCalls.generateHash (literal "y") = hash :=
    generateHash_bcryptCalls hhash
  have hcut : cString hash = hash :=
    cString_eq_self.mpr (Bcrypt.length_hashText (by decide) hhash).2
  refine ⟨_, s, t, hash, hrun, by simp, hhash, ?_⟩
  rw [huser, hrow, hcalls]
  change some (User.mk _ (cString (bcryptCalls.generateHash (literal "y")))) = _
  rw [hgenerated, hcut]
  rfl

/-- The row of an earlier registration is the one that a login under its name is checked
against. -/
theorem selectUser_of_registered (hrun : ServiceRun now users history s)
    (hhistory : history = before ++ t :: after) (ht' : t' ∈ after)
    (hregistered : registeredUser? t = some user)
    (hname : user.username = cString request'.username)
    (hsteps : t'.input.calls.steps = true) :
    selectUser t'.input.calls t'.pre.users request'.username = some user := by
  subst hhistory
  obtain ⟨hbefore, hstep, hafter⟩ := hrun.split
  obtain ⟨middle, rest, rfl⟩ := List.append_of_mem ht'
  obtain ⟨hmiddle, -, -⟩ := hafter.split
  have hinserted : user ∈ t.post.users.rows := by
    rw [rows_of_serve hstep, hregistered]
    simp
  exact selectUser_of_mem hsteps (rows_of_laterRun hmiddle hinserted) hname

/-- The row of a registration authorizes whoever has a password that bcrypt makes the same
text of, with the salt of that registration. -/
theorem verifyClient_registered (hrun : ServiceRun now users history s)
    (hhistory : history = before ++ t :: after) (ht' : t' ∈ after)
    (hhandshake : handshake? t.input.input t.pre.app = some (p, request))
    (hregistered : registeredUser? t = some user)
    (hname : cString request'.username = cString request.username)
    (hbcrypt : UsesBcrypt t.input.calls) (hbcrypt' : UsesBcrypt t'.input.calls)
    (hprepares : t'.input.calls.prepares = true) (hsteps : t'.input.calls.steps = true) :
    ∃ csalt, Bcrypt.hashText request.password 98 10 csalt = some user.passwordHash ∧
      (verifyClient t'.input.calls t'.pre.users request'.username request'.password =
          .authorized ↔
        Bcrypt.hashText request'.password 98 10 csalt = some user.passwordHash) := by
  obtain ⟨q, asked, hhandshaked, -, -, huser⟩ := registeredUser?_eq_some.mp hregistered
  rw [hhandshake, Option.some.injEq, Prod.mk.injEq] at hhandshaked
  obtain ⟨-, rfl⟩ := hhandshaked
  have husername : user.username = cString request'.username := by rw [huser, hname]
  have hselected := selectUser_of_registered hrun hhistory ht' hregistered husername hsteps
  obtain ⟨csalt, hhash, hvalid⟩ := validates_generateHash hbcrypt hbcrypt' request.password
  obtain ⟨-, -, hcut⟩ := cString_generateHash hbcrypt request.password
  have hstored : Bcrypt.hashText request.password 98 10 csalt = some user.passwordHash := by
    rw [hhash, huser, hcut]
  refine ⟨csalt, hstored, ?_⟩
  rw [verifyClient_authorized, ← hstored, ← hvalid request'.password]
  constructor
  · rintro ⟨-, row, hrow, hvalidated⟩
    rw [hselected, Option.some.injEq] at hrow
    rwa [← hrow, huser] at hvalidated
  · intro hvalidated
    refine ⟨hprepares, user, hselected, ?_⟩
    rwa [huser]

/-- Who has registered logs in: in every run, whatever happened in between, a Login packet
under the same C string whose password has the same first 72 bytes is accepted, as long as
the database works. -/
theorem registered_logs_in (hrun : ServiceRun now users history s)
    (hhistory : history = before ++ t :: after) (ht' : t' ∈ after)
    (hhandshake : handshake? t.input.input t.pre.app = some (p, request))
    (hregistered : registeredUser? t = some user)
    (hhandshake' : handshake? t'.input.input t'.pre.app = some (p', request'))
    (hkind' : request'.kind = .login)
    (hname : cString request'.username = cString request.username)
    (hpassword : request'.password.take 72 = request.password.take 72)
    (hbcrypt : UsesBcrypt t.input.calls) (hbcrypt' : UsesBcrypt t'.input.calls)
    (hprepares : t'.input.calls.prepares = true) (hsteps : t'.input.calls.steps = true) :
    (∃ c, t'.post.app.deref p' = some c ∧ c.status = .authenticated) ∧
      ∃ session, t'.post.app.sessions.find? request'.username = some session ∧
        session.connection = some p' := by
  obtain ⟨csalt, hstored, haccepted⟩ := verifyClient_registered hrun hhistory ht' hhandshake
    hregistered hname hbcrypt hbcrypt' hprepares hsteps
  have hsame : Bcrypt.hashText request'.password 98 10 csalt = some user.passwordHash := by
    rw [← hstored]
    apply Bcrypt.hashText_congr
    intro n hn
    simp only [Bcrypt.byteAt_passwordKey_b hn, hpassword]
  have hauthorized := haccepted.mpr hsame
  obtain ⟨-, row, hselected, -⟩ := verifyClient_authorized.mp hauthorized
  have hlogin : LogsInAs t' p' request' row := ⟨hhandshake', hkind', hselected, hauthorized⟩
  have hmem : t' ∈ history := by
    rw [hhistory]
    simp [ht']
  obtain ⟨hstep', _, hrun'⟩ := hrun.transition hmem
  obtain ⟨hstatus, session, hsession, -, hconnection⟩ :=
    hlogin.stored (wellFormed_of_run (serverRun_of_service hrun')) hstep'
  exact ⟨hstatus, session, hsession, hconnection⟩

theorem registered_logs_in_c : ∃ history s t', ServiceRun 0 noUsers history s ∧ t' ∈ history ∧
    ∃ session, t'.post.app.sessions.find? (literal "c") = some session ∧
      session.connection = some ⟨6, 1⟩ := by
  obtain ⟨first, t, last, s', s, user, hrun, -, hhandshake, hregistered, hhandshake', hcalls⟩ :=
    exists_registered_run
  have hlogs := @registered_logs_in _ _ _ [first] [last, ⟨s', loggingIn, s⟩] _ _ _ _ _ _ _ _
    hrun rfl (List.mem_cons_of_mem _ (List.mem_singleton_self _)) hhandshake hregistered
    hhandshake' rfl rfl rfl (hcalls ▸ usesBcrypt_bcryptCalls) usesBcrypt_bcryptCalls rfl rfl
  exact ⟨_, s, _, hrun, by simp, hlogs.2⟩

theorem authenticated_iff_authorized (hwf : WellFormed t'.pre.app)
    (hstep : serve t'.input t'.pre = .ok t'.post)
    (hhandshake' : handshake? t'.input.input t'.pre.app = some (p', request'))
    (hkind' : request'.kind = .login) :
    (∃ c, t'.post.app.deref p' = some c ∧ c.status = .authenticated) ↔
      verifyClient t'.input.calls t'.pre.users request'.username request'.password =
        .authorized := by
  obtain ⟨c, rest, hp, hshake⟩ :=
    (handshake?_eq_some (i := t'.input.against t'.pre.users) hwf).mp hhandshake'
  have hserver := step_of_serve hstep
  have hpossible := possible_of_step hserver
  constructor
  · rintro ⟨d, hd, hstatus⟩
    by_contra hrefused
    rw [step_loginRefused hwf hp hshake hpossible hkind' rfl hrefused, Except.ok.injEq] at hserver
    rw [← hserver, ServerApp.deref_replied
      (s := t'.pre.app.beginEvent (t'.input.against t'.pre.users).now) hp (by rfl)] at hd
    rw [← Option.some.inj hd] at hstatus
    exact absurd hstatus (by simp)
  · intro hauthorized
    exact ⟨_, (lookups_of_login hwf hp hshake hkind' hauthorized hpossible hserver).1, rfl⟩

/-- After a registration, a login under the same C string is accepted exactly when bcrypt
makes the same text of its password, with the salt of that registration, as long as the
database works. -/
theorem login_registered (hrun : ServiceRun now users history s)
    (hhistory : history = before ++ t :: after) (ht' : t' ∈ after)
    (hhandshake : handshake? t.input.input t.pre.app = some (p, request))
    (hregistered : registeredUser? t = some user)
    (hhandshake' : handshake? t'.input.input t'.pre.app = some (p', request'))
    (hkind' : request'.kind = .login)
    (hname : cString request'.username = cString request.username)
    (hbcrypt : UsesBcrypt t.input.calls) (hbcrypt' : UsesBcrypt t'.input.calls)
    (hprepares : t'.input.calls.prepares = true) (hsteps : t'.input.calls.steps = true) :
    ∃ csalt, Bcrypt.hashText request.password 98 10 csalt = some user.passwordHash ∧
      ((∃ c, t'.post.app.deref p' = some c ∧ c.status = .authenticated) ↔
        Bcrypt.hashText request'.password 98 10 csalt = some user.passwordHash) := by
  obtain ⟨csalt, hstored, haccepted⟩ := verifyClient_registered hrun hhistory ht' hhandshake
    hregistered hname hbcrypt hbcrypt' hprepares hsteps
  have hmem : t' ∈ history := by
    rw [hhistory]
    simp [ht']
  obtain ⟨hstep', _, hrun'⟩ := hrun.transition hmem
  refine ⟨csalt, hstored, ?_⟩
  rw [← haccepted]
  exact authenticated_iff_authorized (wellFormed_of_run (serverRun_of_service hrun')) hstep'
    hhandshake' hkind'

theorem login_registered_c : ∃ history s t t' user csalt, ServiceRun 0 noUsers history s ∧
    t ∈ history ∧ t' ∈ history ∧ registeredUser? t = some user ∧
    Bcrypt.hashText (literal "y") 98 10 csalt = some user.passwordHash ∧
    ∃ c, t'.post.app.deref ⟨6, 1⟩ = some c ∧ c.status = .authenticated := by
  obtain ⟨first, t, last, s', s, user, hrun, -, hhandshake, hregistered, hhandshake', hcalls⟩ :=
    exists_registered_run
  obtain ⟨csalt, hstored, haccepted⟩ := @login_registered _ _ _ [first]
    [last, ⟨s', loggingIn, s⟩] _ _ _ _ _ _ _ _ hrun rfl
    (List.mem_cons_of_mem _ (List.mem_singleton_self _)) hhandshake hregistered hhandshake' rfl
    rfl (hcalls ▸ usesBcrypt_bcryptCalls) usesBcrypt_bcryptCalls rfl rfl
  exact ⟨_, s, t, _, user, csalt, hrun, by simp, by simp, hregistered, hstored,
    haccepted.mpr hstored⟩

end

end TChat.Server
