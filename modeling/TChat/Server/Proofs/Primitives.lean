import TChat.Server.App
/-!
# Pointers, filters and the two parsers, one lemma each

What the later proofs use of the small operations: reading through a pointer
after a store, the fields an operation leaves alone, and the shape of the
results of `handle_read` and of the two parsers.  Nothing after this module
unfolds them.
-/

namespace TChat.Server

open TChat.Common TChat.Lib

namespace ServerApp

variable {s : ServerApp} {p q : ConnectionPtr} {c d : ClientConnection}

/-! ## Pointers -/

theorem deref_eq_some :
    s.deref p = some c ↔ s.connections.find? p.fd = some c ∧ c.node = p.node := by
  unfold deref
  cases hfind : s.connections.find? p.fd with
  | none => simp
  | some found =>
      by_cases hnode : found.node = p.node
      · simp only [hnode, if_true, Option.some.injEq]
        constructor
        · rintro rfl
          exact ⟨rfl, hnode⟩
        · exact fun h => h.1
      · simp only [hnode, if_false, reduceCtorEq, Option.some.injEq, false_iff]
        rintro ⟨rfl, h⟩
        exact hnode h

theorem deref_of_find? {fd : Fd} (h : s.connections.find? fd = some c) :
    s.deref ⟨fd, c.node⟩ = some c :=
  deref_eq_some.mpr ⟨h, rfl⟩

theorem load_eq (h : s.deref p = some c) : s.load p = .ok c := by
  rw [load, h]

theorem deref_congr {s' : ServerApp} (h : s'.connections = s.connections) :
    s'.deref p = s.deref p := by
  rw [deref, deref, h]

theorem deref_store (h : s.deref p = some c) (hnode : d.node = c.node) :
    (s.store p d).deref q = if q = p then some d else s.deref q := by
  obtain ⟨hfind, hp⟩ := deref_eq_some.mp h
  unfold deref
  rw [store_connections, OrderedMap.find?_insert]
  by_cases hfd : q.fd = p.fd
  · have hiff : q = p ↔ d.node = q.node := by
      rw [hnode, hp]
      constructor
      · rintro rfl
        rfl
      · intro hq
        obtain ⟨qfd, qnode⟩ := q
        obtain ⟨pfd, pnode⟩ := p
        simp only [ConnectionPtr.mk.injEq]
        exact ⟨hfd, hq.symm⟩
    simp only [hfd, if_true, hfind, hiff]
    split_ifs with hq hold
    · rfl
    · exact absurd (hnode.trans hold) hq
    · rfl
  · have hne : q ≠ p := by
      rintro rfl
      exact hfd rfl
    simp only [hfd, if_false, hne]

theorem deref_store_self (h : s.deref p = some c) (hnode : d.node = c.node) :
    (s.store p d).deref p = some d := by
  rw [deref_store h hnode, if_pos rfl]

@[simp] theorem store_store : (s.store p c).store p d = s.store p d := by
  simp only [store, OrderedMap.insert_insert]

theorem store_of_deref (h : s.deref p = some c) : s.store p c = s := by
  rw [store, OrderedMap.insert_of_find? (deref_eq_some.mp h).1]

@[simp] theorem deref_log (actions : List Action) :
    (s.log actions).deref p = s.deref p := rfl

@[simp] theorem deref_beginEvent (now : Time) :
    (s.beginEvent now).deref p = s.deref p := rfl

/-! ## Write filters -/

section Filters

variable (i : Input) (fd : Fd) (s : ServerApp)

theorem enableWriteEvent_eq :
    s.enableWriteEvent i fd =
      { s with
        writeFilter := fun other =>
          if other = fd ∧ i.kevent fd = true then true else s.writeFilter other } := by
  unfold enableWriteEvent setWriteFilter
  split_ifs with h <;> simp [h]

theorem disableWriteEvent_eq :
    s.disableWriteEvent i fd =
      { s with
        writeFilter := fun other =>
          if other = fd ∧ i.kevent fd = true then false else s.writeFilter other } := by
  unfold disableWriteEvent setWriteFilter
  split_ifs with h <;> simp [h]

theorem foldl_enableWriteEvent (fds : List Fd) :
    fds.foldl (fun s fd => s.enableWriteEvent i fd) s =
      { s with
        writeFilter := fun other =>
          if other ∈ fds ∧ i.kevent other = true then true else s.writeFilter other } := by
  induction fds generalizing s with
  | nil => simp
  | cons fd fds ih =>
      rw [List.foldl_cons, ih, enableWriteEvent_eq]
      congr 1
      funext other
      by_cases hfd : other = fd
      · subst hfd
        by_cases hk : i.kevent other = true <;> simp [hk]
      · simp [hfd]

end Filters

end ServerApp

/-! ## Sessions -/

theorem findSession_some {s : ServerApp} {p : ConnectionPtr} {session : ClientSession}
    (h : ClientManager.findSesssionFromConnection p s = some session) :
    session.connection = some p ∧ ∃ username, s.sessions.find? username = some session := by
  unfold ClientManager.findSesssionFromConnection at h
  rw [Option.map_eq_some_iff] at h
  obtain ⟨⟨username, found⟩, hfind, rfl⟩ := h
  have hmem := List.mem_of_find?_eq_some hfind
  refine ⟨by simpa using List.find?_some hfind, username, OrderedMap.mem_entries.mp hmem⟩

theorem findSession_none {s : ServerApp} {p : ConnectionPtr} :
    ClientManager.findSesssionFromConnection p s = none ↔
      ∀ username session, s.sessions.find? username = some session →
        session.connection ≠ some p := by
  unfold ClientManager.findSesssionFromConnection
  simp only [Option.map_eq_none_iff, List.find?_eq_none, decide_eq_true_eq, Prod.forall,
    OrderedMap.mem_entries]

/-! ## Reading -/

/-- The outcome of the `SSL_read` that ends the loop of `handle_read`: the first
that is not an interruption. -/
def readOutcome : List SslRead → Option SslRead
  | .failed (.syscall .eintr) :: more => readOutcome more
  | outcome :: _ => some outcome
  | [] => none

theorem readLoop_eq (outcomes : List SslRead) (c : ClientConnection) :
    readLoop outcomes c =
      match readOutcome outcomes with
      | none => none
      | some (.received bytes) =>
          if bytes = [] ∨ readBufferSize < bytes.length then none
          else
            some (.dataReceived,
              { c with rxBuffer := c.rxBuffer ++ bytes, readWaitingForWrite := false })
      | some (.failed .wantRead) => some (.wantRead, { c with readWaitingForWrite := false })
      | some (.failed .wantWrite) => some (.wantWrite, { c with readWaitingForWrite := true })
      | some (.failed .zeroReturn) => some (.connectionClosed, c)
      | some (.failed _) => some (.fatalError, c) := by
  fun_induction readOutcome outcomes with
  | case1 more ih => rw [readLoop, ih]
  | case2 outcome more h =>
      cases outcome with
      | received bytes => rfl
      | failed error =>
          cases error with
          | syscall errno =>
              cases errno with
              | eintr => exact (h rfl).elim
              | _ => rfl
          | _ => rfl
  | case3 => rfl

/-! ## The parsers -/

theorem handshakeRequest_kind {type : Option PacketType} {username password : Bytes}
    (h : (handshakeRequest type username password).status = .validAuthPacket) :
    (handshakeRequest type username password).request.kind ≠ .error := by
  unfold handshakeRequest at h ⊢
  split <;> simp_all

theorem processHandshakePacket_kind (rxBuffer : Bytes)
    (h : (processHandshakePacket rxBuffer).1.status = .validAuthPacket) :
    (processHandshakePacket rxBuffer).1.request.kind ≠ .error := by
  unfold processHandshakePacket at h ⊢
  dsimp only at h ⊢
  split_ifs at h ⊢ with hshort hmagic hsize hmissing hbar
  exact handshakeRequest_kind h

theorem clientStreamLoop_result (fuel : Nat) (rxBuffer : Bytes) :
    (clientStreamLoop fuel rxBuffer).result ≠ .bufferEmpty := by
  induction fuel generalizing rxBuffer with
  | zero => simp [clientStreamLoop]
  | succ fuel ih =>
      unfold clientStreamLoop
      dsimp only
      split_ifs with hshort hmagic hmissing hquit
      · simp
      · simp
      · simp
      · split <;> first | exact ih _ | simp
      · split <;> first | exact ih _ | simp

theorem processClientStream_result (rxBuffer : Bytes) :
    (processClientStream rxBuffer).result ≠ .bufferEmpty :=
  clientStreamLoop_result _ _

end TChat.Server
