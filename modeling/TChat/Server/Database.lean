import TChat.Server.Proofs.Deliveries
/-!
# The database behind the server

`server/authorization.cpp` over a table of users.  sqlite and bcrypt are not looked
into: what their calls return is a parameter.  The two functions hand the database
the C string of a name, which ends at the first NUL byte.
-/

namespace TChat.Server

open TChat.Common TChat.Lib

/-- What a function sees of a string that it takes as a NUL terminated one. -/
def cString (text : Bytes) : Bytes := text.takeWhile (· ≠ 0)

structure User where
  username : Bytes
  passwordHash : Bytes
  deriving DecidableEq, Repr

/-- The table `users`, with its constraint `UNIQUE` on the names. -/
structure Users where
  rows : List User
  unique : (rows.map (·.username)).Nodup

/-- What the calls of the two libraries return during one event. -/
structure LibraryCalls where
  opens : Bool
  prepares : Bool
  /-- `sqlite3_step` runs into no error of its own. -/
  steps : Bool
  generateHash : Bytes → Bytes
  validatePassword : Bytes → Bytes → Bool

/-- `INSERT INTO users`, unless the constraint is against it. -/
def Users.insert (users : Users) (user : User) : Option Users :=
  if h : user.username ∈ users.rows.map (·.username) then none
  else
    some
      { rows := users.rows ++ [user]
        unique := by
          rw [List.map_append, List.map_singleton]
          exact users.unique.append (List.nodup_singleton _) (by simpa using h) }

/-- `SELECT ... WHERE username = ? LIMIT 1`, with the name bound as a C string. -/
def selectUser (calls : LibraryCalls) (users : Users) (username : Bytes) : Option User :=
  if calls.steps then users.rows.find? (·.username = cString username) else none

def verifyClient (calls : LibraryCalls) (users : Users) (username password : Bytes) :
    VerifyClientStatus :=
  if !calls.prepares then .execFailed
  else
    match selectUser calls users username with
    | none => .userNotFound
    | some user =>
        if calls.validatePassword password (cString user.passwordHash) then .authorized
        else .notAuthorized

/-- `register_client`: the status, and the table it leaves. -/
def registerClient (calls : LibraryCalls) (users : Users) (username password : Bytes) :
    RegisterClientStatus × Users :=
  if !calls.opens then (.unableToOpenDatabase, users)
  else
    let hashedPass := calls.generateHash password
    if !calls.prepares then (.unknownError, users)
    else if !calls.steps then (.execFailed, users)
    else
      match users.insert ⟨cString username, cString hashedPass⟩ with
      | none => (.usernameExists, users)
      | some users => (.clientRegistered, users)

/-! ## Runs against a table -/

def Event.descriptor? : Event → Option Fd
  | .read fd => some fd
  | .write fd => some fd
  | _ => none

/-- The connection on which an event completes a handshake packet, and what it asks for. -/
def handshake? (i : Input) (s : ServerApp) : Option (ConnectionPtr × HandshakeRequest) := do
  let fd ← i.event.descriptor?
  let c ← s.connections.find? fd
  if c.Reads i.event ∧ c.status = .awaitingAuth then
    match readOutcome i.sslRead with
    | some (.received bytes) =>
        let (result, _) := processHandshakePacket (c.rxBuffer ++ bytes)
        if bytes = [] ∨ readBufferSize < bytes.length then none
        else if result.status = .validAuthPacket then some (⟨fd, c.node⟩, result.request)
        else none
    | _ => none
  else none

structure Service where
  app : ServerApp
  users : Users

/-- An event, and what the libraries return during it. -/
structure Served where
  input : Input
  calls : LibraryCalls

/-- The event as the server sees it: `verify_client` and `register_client` answer from
the table. -/
def Served.against (i : Served) (users : Users) : Input :=
  { i.input with
    verifyClient := verifyClient i.calls users
    registerClient := fun username password =>
      (registerClient i.calls users username password).1 }

/-- One event.  The table changes when a Register packet is handled. -/
def serve (i : Served) (s : Service) : Except Fault Service :=
  (step (i.against s.users) s.app).map fun app =>
    { app := app
      users :=
        match handshake? i.input s.app with
        | some (_, request) =>
            if request.kind = .register then
              (registerClient i.calls s.users request.username request.password).2
            else s.users
        | none => s.users }

abbrev ServiceRun (now : Time) (users : Users) :
    List (Transition Service Served) → Service → Prop :=
  Run serve ⟨initialState now, users⟩

section

variable {i : Input} {s : ServerApp} {p : ConnectionPtr} {request : HandshakeRequest}

theorem handshake?_eq_some (hwf : WellFormed s) :
    handshake? i s = some (p, request) ↔
      ∃ c rest, s.deref p = some c ∧ Handshakes i c request rest := by
  constructor
  · intro h
    simp only [handshake?, bind, Option.bind_eq_some_iff] at h
    obtain ⟨fd, hfd, c, hfind, h⟩ := h
    split_ifs at h with hreads
    split at h
    · rename_i bytes houtcome
      obtain ⟨result, rest, hparse⟩ : ∃ result rest,
          processHandshakePacket (c.rxBuffer ++ bytes) = (result, rest) := ⟨_, _, rfl⟩
      rw [hparse] at h
      dsimp only at h
      split_ifs at h with hbytes hvalid
      obtain ⟨status, request'⟩ := result
      obtain rfl : status = .validAuthPacket := hvalid
      obtain ⟨rfl, rfl⟩ := Prod.mk.injEq .. ▸ Option.some.inj h
      rw [not_or, not_lt] at hbytes
      have hlistening : c.status ≠ .closing := by simp [hreads.2]
      exact ⟨c, rest, ServerApp.deref_of_find? hfind, bytes,
        ⟨hreads.1, hlistening, houtcome, hbytes.1, hbytes.2⟩, hreads.2, hparse⟩
    · simp at h
  · rintro ⟨c, rest, hp, bytes, hreceives, hstatus, hparse⟩
    obtain ⟨hfind, hnode⟩ := ServerApp.deref_eq_some.mp hp
    have hfd : i.event.descriptor? = some p.fd := by
      rw [← (hwf.deref_ok hp).fd_eq]
      rcases hreceives.reads.2 with ⟨hevent, -⟩ | ⟨hevent, -⟩ <;> rw [hevent] <;> rfl
    have hbytes : ¬(bytes = [] ∨ readBufferSize < bytes.length) := by
      rw [not_or, not_lt]
      exact ⟨hreceives.nonempty, hreceives.bounded⟩
    simp only [handshake?, hfd, bind, Option.bind_some, hfind, hreceives.reads, hstatus,
      and_self, if_true, hreceives.outcome, hparse, hbytes, if_false, hnode]

end

/-! ## What the two functions do about a name -/

section

variable {calls : LibraryCalls} {users : Users} {username password : Bytes} {user : User}

theorem cString_eq_self : cString username = username ↔ 0 ∉ username := by
  rw [cString, List.takeWhile_eq_self_iff]
  constructor
  · intro h hmem
    simpa using h 0 hmem
  · intro h byte hbyte
    have hne : byte ≠ 0 := by
      rintro rfl
      exact h hbyte
    simpa using hne

theorem selectUser_some (h : selectUser calls users username = some user) :
    calls.steps = true ∧ user ∈ users.rows ∧ user.username = cString username := by
  unfold selectUser at h
  split_ifs at h with hsteps
  exact ⟨hsteps, List.mem_of_find?_eq_some h, by simpa using List.find?_some h⟩

theorem selectUser_of_mem (hsteps : calls.steps = true) (hmem : user ∈ users.rows)
    (hname : user.username = cString username) : selectUser calls users username = some user := by
  rw [selectUser, if_pos hsteps]
  cases hfind : users.rows.find? (·.username = cString username) with
  | none =>
      rw [List.find?_eq_none] at hfind
      exact absurd (by simpa using hname) (hfind user hmem)
  | some other =>
      have hother : other.username = cString username := by simpa using List.find?_some hfind
      rw [List.inj_on_of_nodup_map users.unique (List.mem_of_find?_eq_some hfind) hmem
        (hother.trans hname.symm)]

theorem registerClient_inserts
    (h : (registerClient calls users username password).1 = .clientRegistered) :
    ∃ hash, (registerClient calls users username password).2.rows =
      users.rows ++ [⟨cString username, hash⟩] := by
  unfold registerClient Users.insert at h ⊢
  dsimp only at h ⊢
  split_ifs at h ⊢
  exact ⟨_, rfl⟩

end

end TChat.Server
