import TChat.Server.Proofs.StepOutcome
/-!
# What an operation leaves behind a pointer and under a name

One equation for `deref` and one for the lookup of a session after each of the
operations that appear in `Outcome`.  The invariants are proved from these.
-/

namespace TChat.Server

open TChat.Common TChat.Lib

/-! ## Switching filters and broadcasting -/

namespace ServerApp

variable (i : Input) (fd : Fd) (filter : Option Bool) (s : ServerApp)

theorem switchWriteEvent_eq :
    s.switchWriteEvent i fd filter =
      { s with
        writeFilter := fun other =>
          if other = fd ∧ i.kevent fd = true then filter.getD (s.writeFilter other)
          else s.writeFilter other } := by
  rcases filter with _ | (_ | _)
  · simp [switchWriteEvent]
  · exact disableWriteEvent_eq i fd s
  · exact enableWriteEvent_eq i fd s

@[simp] theorem switchWriteEvent_connections :
    (s.switchWriteEvent i fd filter).connections = s.connections := by
  rw [switchWriteEvent_eq]

@[simp] theorem switchWriteEvent_sessions :
    (s.switchWriteEvent i fd filter).sessions = s.sessions := by
  rw [switchWriteEvent_eq]

@[simp] theorem enableWriteEvent_connections :
    (s.enableWriteEvent i fd).connections = s.connections := by
  rw [enableWriteEvent_eq]

@[simp] theorem enableWriteEvent_sessions :
    (s.enableWriteEvent i fd).sessions = s.sessions := by
  rw [enableWriteEvent_eq]

theorem deref_replied {i : Input} {s : ServerApp} {p : ConnectionPtr} {c c' : ClientConnection}
    (hp : s.deref p = some c) (hnode : c'.node = c.node) (actions : List Action) :
    (((s.store p c').log actions).enableWriteEvent i p.fd).deref p = some c' := by
  rw [deref_congr (enableWriteEvent_connections i p.fd _), deref_log]
  exact deref_store_self hp hnode

theorem actions_replied (i : Input) (s : ServerApp) (p : ConnectionPtr) (c : ClientConnection)
    (actions : List Action) :
    (((s.store p c).log actions).enableWriteEvent i p.fd).actions = s.actions ++ actions := by
  rw [enableWriteEvent_eq]
  rfl

variable (sender : Option ConnectionPtr) (senderFd : Fd) (packet : Bytes)

/-- The descriptors whose filter a broadcast enables: those it queues the
packet on, except where a flush waits for the socket to be readable. -/
def awakened : List Fd :=
  ((s.recipients senderFd).filter fun entry => !entry.2.writeWaitingForRead).map Prod.fst

theorem broadcastAndEnable_eq :
    s.broadcastAndEnable i sender senderFd packet =
      { s with
        connections := s.connections.mapEntries fun fd c =>
          if isRecipient senderFd fd c then queueWrite c packet else c
        writeFilter := fun fd =>
          if fd ∈ s.awakened senderFd ∧ i.kevent fd = true then true else s.writeFilter fd
        actions := s.actions ++ [.broadcast sender packet] ++
          (s.recipients senderFd).map fun entry =>
            .queueWrite ⟨entry.1, entry.2.node⟩ packet } := by
  unfold broadcastAndEnable
  dsimp only [broadcast]
  rw [foldl_enableWriteEvent]
  rfl

theorem mem_awakened (fd : Fd) :
    fd ∈ s.awakened senderFd ↔
      ∃ c, s.connections.find? fd = some c ∧ isRecipient senderFd fd c = true ∧
        c.writeWaitingForRead = false := by
  simp only [awakened, recipients, List.mem_map, List.mem_filter, OrderedMap.mem_entries,
    Prod.exists, Bool.not_eq_eq_eq_not, Bool.not_true, and_assoc]
  constructor
  · rintro ⟨_, c, hfind, hrecipient, hwaiting, rfl⟩
    exact ⟨c, hfind, hrecipient, hwaiting⟩
  · rintro ⟨c, hfind, hrecipient, hwaiting⟩
    exact ⟨fd, c, hfind, hrecipient, hwaiting, rfl⟩

@[simp] theorem broadcastAndEnable_sessions :
    (s.broadcastAndEnable i sender senderFd packet).sessions = s.sessions := by
  rw [broadcastAndEnable_eq]

theorem deref_broadcastAndEnable (p : ConnectionPtr) :
    (s.broadcastAndEnable i sender senderFd packet).deref p =
      (s.deref p).map fun c =>
        if isRecipient senderFd p.fd c then queueWrite c packet else c := by
  rw [broadcastAndEnable_eq, deref, deref, OrderedMap.find?_mapEntries]
  cases s.connections.find? p.fd with
  | none => rfl
  | some c =>
      have hnode : (if isRecipient senderFd p.fd c then queueWrite c packet else c).node =
          c.node := by
        split_ifs <;> rfl
      simp only [Option.map_some, hnode]
      by_cases hp : c.node = p.node <;> simp [hp]

end ServerApp

/-! ## Releasing connections -/

section Release

variable {s : ServerApp} {p q : ConnectionPtr} {c : ClientConnection}

theorem deref_release (now : Time) (ssl : Option Nat) (h : s.deref p = some c) :
    (ClientManager.release now p ssl s).deref q = if q = p then none else s.deref q := by
  obtain ⟨hfind, hnode⟩ := ServerApp.deref_eq_some.mp h
  unfold ServerApp.deref
  rw [show (ClientManager.release now p ssl s).connections = s.connections.erase p.fd from rfl,
    OrderedMap.find?_erase]
  by_cases hfd : q.fd = p.fd
  · by_cases hq : q = p
    · simp [hq]
    · have hne : ¬c.node = q.node := by
        intro hc
        apply hq
        obtain ⟨qfd, qnode⟩ := q
        obtain ⟨pfd, pnode⟩ := p
        simp only [ConnectionPtr.mk.injEq]
        exact ⟨hfd, hc.symm.trans hnode⟩
      simp [hfd, hq, hfind, hne]
  · have hq : q ≠ p := by
      rintro rfl
      exact hfd rfl
    simp [hfd, hq]

def ServerApp.HeldOnce (s : ServerApp) : Prop :=
  ∀ {u v x y p}, s.sessions.find? u = some x → s.sessions.find? v = some y →
    x.connection = some p → y.connection = some p → u = v

@[simp] theorem detach_connection (now : Time) (x : ClientSession) :
    (ClientManager.detach now x).connection = none := by
  unfold ClientManager.detach
  split_ifs <;> rfl

/-- `disconnect` stops at the first session it finds, which is the only one. -/
theorem find?_release (now : Time) (ssl : Option Nat) (h : s.HeldOnce) (u : Bytes) :
    (ClientManager.release now p ssl s).sessions.find? u =
      (s.sessions.find? u).map fun x =>
        if x.connection = some p then ClientManager.detach now x else x := by
  have hfirst := OrderedMap.find?_modifyFirst (m := s.sessions)
    (p := fun x => decide (x.connection = some p)) (ClientManager.detach now)
    (fun u x v y hx hy hpx hpy => h hx hy (by simpa using hpx) (by simpa using hpy)) u
  rw [show (ClientManager.release now p ssl s).sessions = s.sessions.modifyFirst
    (fun x => decide (x.connection = some p)) (ClientManager.detach now) from rfl, hfirst]
  simp only [decide_eq_true_eq]

theorem heldOnce_release (now : Time) (ssl : Option Nat) (h : s.HeldOnce) :
    (ClientManager.release now p ssl s).HeldOnce := by
  intro u v x y q hu hv hx hy
  rw [find?_release now ssl h, Option.map_eq_some_iff] at hu hv
  obtain ⟨x', hu, rfl⟩ := hu
  obtain ⟨y', hv, rfl⟩ := hv
  split_ifs at hx hy <;> first | exact h hu hv hx hy | simp at hx | simp at hy

def pointer (entry : Fd × ClientConnection) : ConnectionPtr := ⟨entry.1, entry.2.node⟩

theorem deref_releaseAll (now : Time) {entries : List (Fd × ClientConnection)}
    (hsorted : entries.Pairwise (fun a b => a.1 < b.1))
    (hentries : ∀ entry ∈ entries, s.connections.find? entry.1 = some entry.2) :
    (s.releaseAll now entries).deref q =
      if q ∈ entries.map pointer then none else s.deref q := by
  induction entries generalizing s with
  | nil => rfl
  | cons entry rest ih =>
      rw [List.pairwise_cons] at hsorted
      have hderef : s.deref (pointer entry) = some entry.2 :=
        ServerApp.deref_of_find? (hentries entry (by simp))
      rw [ServerApp.releaseAll, List.foldl_cons, ← ServerApp.releaseAll, ih hsorted.2]
      · rw [show (⟨entry.1, entry.2.node⟩ : ConnectionPtr) = pointer entry from rfl,
          deref_release now _ hderef]
        by_cases hq : q = pointer entry
        · simp [hq]
        · simp only [List.map_cons, List.mem_cons, hq, false_or, if_false]
      · intro e he
        have hne : e.1 ≠ entry.1 := ne_of_gt (hsorted.1 e he)
        rw [show (ClientManager.release now ⟨entry.1, entry.2.node⟩ entry.2.ssl
          s).connections = s.connections.erase entry.1 from rfl, OrderedMap.find?_erase,
          if_neg hne]
        exact hentries e (List.mem_cons_of_mem _ he)

theorem find?_releaseAll (now : Time) (entries : List (Fd × ClientConnection))
    (h : s.HeldOnce) (u : Bytes) :
    (s.releaseAll now entries).sessions.find? u =
      (s.sessions.find? u).map fun x =>
        if ∃ q ∈ entries.map pointer, x.connection = some q then ClientManager.detach now x
        else x := by
  induction entries generalizing s with
  | nil => simp [ServerApp.releaseAll]
  | cons entry rest ih =>
      rw [ServerApp.releaseAll, List.foldl_cons, ← ServerApp.releaseAll,
        ih (heldOnce_release now _ h), find?_release now _ h, Option.map_map]
      congr 1
      funext x
      rw [show (⟨entry.1, entry.2.node⟩ : ConnectionPtr) = pointer entry from rfl]
      by_cases hx : x.connection = some (pointer entry)
      · simp [hx]
      · have hiff : (∃ q ∈ (entry :: rest).map pointer, x.connection = some q) ↔
            ∃ q ∈ rest.map pointer, x.connection = some q := by
          constructor
          · rintro ⟨q, hq, hxq⟩
            rw [List.map_cons, List.mem_cons] at hq
            rcases hq with rfl | hq
            · exact absurd hxq hx
            · exact ⟨q, hq, hxq⟩
          · rintro ⟨q, hq, hxq⟩
            exact ⟨q, List.mem_cons_of_mem _ hq, hxq⟩
        simp only [Function.comp_apply, hx, if_false, hiff]

end Release

/-! ## Admitting a connection -/

theorem deref_addConnection {s : ServerApp} {fd : Fd} (i : Input)
    (hfree : s.connections.find? fd = none) (q : ConnectionPtr) :
    (s.addConnection i fd).deref q =
      if q = ⟨fd, s.nextNode⟩ then
        some (.create s.nextNode fd (some s.nextSsl) i.now)
      else s.deref q := by
  unfold ServerApp.deref
  rw [show (s.addConnection i fd).connections = s.connections.insert fd
    (.create s.nextNode fd (some s.nextSsl) i.now) from rfl, OrderedMap.find?_insert]
  obtain ⟨qfd, qnode⟩ := q
  by_cases hfd : qfd = fd
  · subst hfd
    simp only [if_true, hfree, ConnectionPtr.mk.injEq, true_and,
      show (ClientConnection.create s.nextNode qfd (some s.nextSsl) i.now).node = s.nextNode
        from rfl, eq_comm (a := s.nextNode)]
  · simp [hfd]

/-! ## The timer -/

section Tick

variable {i : Input} {s : ServerApp}

@[simp] theorem markIfTimedOut_node (c : ClientConnection) :
    (ClientManager.markIfTimedOut i c).node = c.node := by
  unfold ClientManager.markIfTimedOut
  split_ifs <;> rfl

theorem deref_markTimedOutConnections (q : ConnectionPtr) :
    (ClientManager.markTimedOutConnections i s).deref q =
      (s.deref q).map (ClientManager.markIfTimedOut i) := by
  unfold ServerApp.deref
  simp only [ClientManager.markTimedOutConnections, OrderedMap.find?_mapEntries]
  cases s.connections.find? q.fd with
  | none => rfl
  | some c =>
      simp only [Option.map_some, markIfTimedOut_node]
      by_cases hnode : c.node = q.node <;> simp [hnode]

theorem removeSession_sessions {u v : Bytes}
    (hkeyed : ∀ u x, s.sessions.find? u = some x → x.username = u) :
    (ClientManager.removeSession v s).2.sessions.find? u =
      if u = v then
        (s.sessions.find? u).filter fun x =>
          x.connection ≠ none ∨ x.state = .connected ∨ x.state = .reconnected
      else s.sessions.find? u := by
  unfold ClientManager.removeSession
  cases hfind : s.sessions.find? v with
  | none =>
      by_cases huv : u = v
      · simp [huv, hfind]
      · simp [huv]
  | some x =>
      have husername := hkeyed v x hfind
      by_cases huv : u = v
      · subst huv
        cases hconnection : x.connection <;> cases hstate : x.state <;>
          simp [hfind, hconnection, hstate, husername, Option.filter]
      · cases hconnection : x.connection <;> cases hstate : x.state <;>
          simp [huv, hconnection, hstate, husername]

theorem removeSession_frame (v : Bytes) :
    (ClientManager.removeSession v s).2 =
      { s with sessions := (ClientManager.removeSession v s).2.sessions } := by
  unfold ClientManager.removeSession
  cases s.sessions.find? v with
  | none => rfl
  | some x =>
      cases hconnection : x.connection <;> cases hstate : x.state <;>
        simp [hconnection, hstate]

def ServerApp.SessionsKeyed (s : ServerApp) : Prop :=
  ∀ u x, s.sessions.find? u = some x → x.username = u

theorem foldl_removeSession {usernames : List Bytes} (hkeyed : s.SessionsKeyed) (u : Bytes) :
    (usernames.foldl (fun s v => (ClientManager.removeSession v s).2) s).sessions.find? u =
      if u ∈ usernames then
        (s.sessions.find? u).filter fun x =>
          x.connection ≠ none ∨ x.state = .connected ∨ x.state = .reconnected
      else s.sessions.find? u := by
  induction usernames generalizing s with
  | nil => simp
  | cons v rest ih =>
      have hnext : (ClientManager.removeSession v s).2.SessionsKeyed := by
        intro w x hw
        rw [removeSession_sessions hkeyed] at hw
        split_ifs at hw
        · exact hkeyed w x (Option.filter_eq_some_iff.mp hw).1
        · exact hkeyed w x hw
      rw [List.foldl_cons, ih hnext, removeSession_sessions hkeyed]
      by_cases huv : u = v
      · simp [huv, Option.filter_filter]
      · simp only [huv, if_false, List.mem_cons, false_or]

theorem foldl_removeSession_frame (usernames : List Bytes) :
    usernames.foldl (fun s v => (ClientManager.removeSession v s).2) s =
      { s with
        sessions := (usernames.foldl
          (fun s v => (ClientManager.removeSession v s).2) s).sessions } := by
  induction usernames generalizing s with
  | nil => rfl
  | cons v rest ih =>
      rw [List.foldl_cons, ih, removeSession_frame v]

theorem find?_removeExpiredSessions (hkeyed : s.SessionsKeyed) (u : Bytes) :
    (ClientManager.removeExpiredSessions s).sessions.find? u =
      (s.sessions.find? u).filter fun x => x.state ≠ .expired ∨ x.connection ≠ none := by
  rw [ClientManager.removeExpiredSessions, foldl_removeSession hkeyed]
  cases hfind : s.sessions.find? u with
  | none => simp
  | some x =>
      have hmem : u ∈ (s.sessions.entries.filter fun entry =>
          entry.2.state = .expired).map Prod.fst ↔ x.state = .expired := by
        simp only [List.mem_map, List.mem_filter, decide_eq_true_eq, Prod.exists,
          exists_and_right, exists_eq_right, OrderedMap.mem_entries, hfind,
          Option.some.injEq, exists_eq_left']
      by_cases hexpired : x.state = .expired
      · simp [hmem, hexpired, Option.filter]
      · simp [hmem, hexpired, Option.filter]

def TimesOut (i : Input) (c : ClientConnection) : Prop :=
  (ClientManager.markIfTimedOut i c).status = .closing ∧ c.txQueue = []

instance (c : ClientConnection) : Decidable (TimesOut i c) :=
  inferInstanceAs (Decidable (_ ∧ _))

@[simp] theorem markIfTimedOut_txQueue (c : ClientConnection) :
    (ClientManager.markIfTimedOut i c).txQueue = c.txQueue := by
  unfold ClientManager.markIfTimedOut
  split_ifs <;> rfl

theorem mem_timedOut (q : ConnectionPtr) :
    q ∈ (ClientManager.markTimedOutConnections i s).timedOut.map pointer ↔
      ∃ c, s.deref q = some c ∧ TimesOut i c := by
  have hmem (fd : Fd) (c : ClientConnection) :
      (fd, c) ∈ (ClientManager.markTimedOutConnections i s).timedOut ↔
        ∃ old, s.connections.find? fd = some old ∧ TimesOut i old ∧
          c = ClientManager.markIfTimedOut i old := by
    simp only [ServerApp.timedOut, List.mem_filter, OrderedMap.mem_entries,
      ClientManager.markTimedOutConnections, OrderedMap.find?_mapEntries,
      Option.map_eq_some_iff, decide_eq_true_eq]
    constructor
    · rintro ⟨⟨old, hold, rfl⟩, hclosing, hqueue⟩
      rw [markIfTimedOut_txQueue] at hqueue
      exact ⟨old, hold, ⟨hclosing, hqueue⟩, rfl⟩
    · rintro ⟨old, hold, ⟨hclosing, hqueue⟩, rfl⟩
      exact ⟨⟨old, hold, rfl⟩, hclosing, by rwa [markIfTimedOut_txQueue]⟩
  obtain ⟨fd, node⟩ := q
  simp only [List.mem_map, Prod.exists, pointer, ConnectionPtr.mk.injEq,
    ServerApp.deref_eq_some]
  constructor
  · rintro ⟨fd', c, hc, rfl, rfl⟩
    obtain ⟨old, hold, htimedOut, rfl⟩ := (hmem _ _).mp hc
    exact ⟨old, ⟨hold, (markIfTimedOut_node old).symm⟩, htimedOut⟩
  · rintro ⟨old, ⟨hold, rfl⟩, htimedOut⟩
    exact ⟨fd, _, (hmem _ _).mpr ⟨old, hold, htimedOut, rfl⟩, rfl, markIfTimedOut_node old⟩

/-- The sessions apart, a tick only releases the connections that timed out. -/
theorem tick_frame :
    s.tick i =
      { (ClientManager.markTimedOutConnections i s).releaseAll i.now
          (ClientManager.markTimedOutConnections i s).timedOut with
        sessions := (s.tick i).sessions } := by
  unfold ServerApp.tick
  dsimp only
  rw [ClientManager.removeExpiredSessions, foldl_removeSession_frame]
  rfl

theorem tick_connections :
    (s.tick i).connections = ((ClientManager.markTimedOutConnections i s).releaseAll i.now
      (ClientManager.markTimedOutConnections i s).timedOut).connections := by
  rw [tick_frame]

theorem deref_tick (q : ConnectionPtr) :
    (s.tick i).deref q =
      (s.deref q).bind fun c =>
        if TimesOut i c then none else some (ClientManager.markIfTimedOut i c) := by
  rw [ServerApp.deref_congr tick_connections, deref_releaseAll]
  · rw [deref_markTimedOutConnections]
    simp only [mem_timedOut]
    cases s.deref q with
    | none => simp
    | some c => simp
  · exact (OrderedMap.sorted _).filter _
  · intro entry hentry
    exact OrderedMap.mem_entries.mp (List.mem_of_mem_filter hentry)

def ServerApp.losesConnection (i : Input) (s : ServerApp) (x : ClientSession) : Bool :=
  (x.connection.bind s.deref).any fun c => TimesOut i c

theorem markIfExpired_eq (x : ClientSession) :
    ClientManager.markIfExpired i x =
      if x.state = .disconnected ∧ x.connection = none ∧
          seconds 60 ≤ i.now - x.disconnectedAt then { x with state := .expired }
      else x := by
  unfold ClientManager.markIfExpired
  split_ifs <;> simp_all

theorem markExpiredSessions_keyed (hkeyed : s.SessionsKeyed) :
    (ClientManager.markExpiredSessions i s).SessionsKeyed := by
  intro u x hx
  simp only [ClientManager.markExpiredSessions, OrderedMap.find?_mapEntries,
    Option.map_eq_some_iff] at hx
  obtain ⟨old, hold, rfl⟩ := hx
  rw [markIfExpired_eq]
  split_ifs <;> exact hkeyed u old hold

theorem releaseAll_keyed (entries : List (Fd × ClientConnection)) (now : Time)
    (hkeyed : s.SessionsKeyed) (hheld : s.HeldOnce) :
    (s.releaseAll now entries).SessionsKeyed := by
  intro u x hx
  rw [find?_releaseAll now entries hheld, Option.map_eq_some_iff] at hx
  obtain ⟨old, hold, rfl⟩ := hx
  have hdetach : (ClientManager.detach now old).username = old.username := by
    unfold ClientManager.detach
    split_ifs <;> rfl
  split_ifs
  · rw [hdetach, hkeyed u old hold]
  · exact hkeyed u old hold

theorem find?_tick (hkeyed : s.SessionsKeyed) (hheld : s.HeldOnce) (u : Bytes) :
    (s.tick i).sessions.find? u =
      ((s.sessions.find? u).map fun x =>
        ClientManager.markIfExpired i
          (if s.losesConnection i x then ClientManager.detach i.now x else x)).filter
        fun x => x.state ≠ .expired ∨ x.connection ≠ none := by
  have hmarkedHeld : (ClientManager.markTimedOutConnections i s).HeldOnce := hheld
  have hreleased := releaseAll_keyed (s := ClientManager.markTimedOutConnections i s)
    (ClientManager.markTimedOutConnections i s).timedOut i.now hkeyed hmarkedHeld
  unfold ServerApp.tick
  dsimp only
  rw [find?_removeExpiredSessions (markExpiredSessions_keyed hreleased)]
  congr 1
  simp only [ClientManager.markExpiredSessions, OrderedMap.find?_mapEntries]
  rw [find?_releaseAll i.now _ hmarkedHeld, Option.map_map]
  congr 1
  funext x
  have hlost : (∃ q ∈ (ClientManager.markTimedOutConnections i s).timedOut.map pointer,
      x.connection = some q) ↔ s.losesConnection i x = true := by
    simp only [mem_timedOut, ServerApp.losesConnection, Option.any_eq_true,
      Option.bind_eq_some_iff, decide_eq_true_eq]
    constructor
    · rintro ⟨q, ⟨c, hc, htimedOut⟩, hq⟩
      exact ⟨c, ⟨q, hq, hc⟩, htimedOut⟩
    · rintro ⟨c, ⟨q, hq, hc⟩, htimedOut⟩
      exact ⟨q, ⟨c, hc, htimedOut⟩, hq⟩
  simp only [Function.comp_apply, hlost]

end Tick

end TChat.Server
