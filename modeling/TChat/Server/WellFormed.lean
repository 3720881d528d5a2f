import TChat.Server.Proofs.Primitives
/-!
# The joint invariant of the two maps

What every reachable state of the server satisfies, one record at a time: an
entry of `connections_` lies under its own descriptor and is alive, an entry of
`sessions_` lies under its own name, and a session's pointer leads to an entry
that has been past the handshake.  Two sessions never hold one connection.
-/

namespace TChat.Server

open TChat.Common TChat.Lib

structure ConnectionOk (s : ServerApp) (fd : Fd) (c : ClientConnection) : Prop where
  fd_eq : c.fd = fd
  nonneg : 0 ≤ fd
  ssl : c.ssl ≠ none
  node_lt : c.node < s.nextNode
  openFd : s.openFd fd = true
  consistent : c.toOutgoing.Consistent

/-- A pointer kept in a session that is safe to follow. -/
def ServerApp.Holds (s : ServerApp) (p : ConnectionPtr) : Prop :=
  ∃ c, s.deref p = some c ∧ c.status ≠ .awaitingAuth

structure SessionOk (s : ServerApp) (username : Bytes) (session : ClientSession) :
    Prop where
  username_eq : session.username = username
  noBar : bar ∉ username
  stored : session.state ≠ .kicked ∧ session.state ≠ .expired
  connected : session.state = .connected → session.connection ≠ none
  holds : ∀ p, session.connection = some p → s.Holds p
  state : session.connection ≠ none →
    session.state = .connected ∨ session.state = .reconnected

/-- The invariant of `ClientManager`. -/
structure WellFormed (s : ServerApp) : Prop where
  connections : ∀ {fd c}, s.connections.find? fd = some c → ConnectionOk s fd c
  sessions : ∀ {u session}, s.sessions.find? u = some session → SessionOk s u session
  injective : ∀ {u v x y p}, s.sessions.find? u = some x → s.sessions.find? v = some y →
    x.connection = some p → y.connection = some p → u = v

theorem wellFormed_initialState (now : Time) : WellFormed (initialState now) :=
  ⟨by simp [initialState], by simp [initialState], by simp [initialState]⟩

namespace WellFormed

variable {s : ServerApp} (hwf : WellFormed s)
include hwf

theorem deref_ok {p : ConnectionPtr} {c : ClientConnection} (h : s.deref p = some c) :
    ConnectionOk s p.fd c :=
  hwf.connections (ServerApp.deref_eq_some.mp h).1

theorem node_lt_of_deref {p : ConnectionPtr} {c : ClientConnection} (h : s.deref p = some c) :
    p.node < s.nextNode := by
  rw [← (ServerApp.deref_eq_some.mp h).2]
  exact (hwf.deref_ok h).node_lt

theorem beginEvent (now : Time) : WellFormed (s.beginEvent now) where
  connections h :=
    have hok := hwf.connections h
    ⟨hok.fd_eq, hok.nonneg, hok.ssl, hok.node_lt, hok.openFd, hok.consistent⟩
  sessions h :=
    have hok := hwf.sessions h
    ⟨hok.username_eq, hok.noBar, hok.stored, hok.connected, hok.holds, hok.state⟩
  injective := hwf.injective

end WellFormed

end TChat.Server
