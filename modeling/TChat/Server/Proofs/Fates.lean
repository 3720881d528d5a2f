import TChat.Server.Proofs.Actions
/-!
# What becomes of a connection

`Fate` is the list of outcomes seen from one connection, with what the event queues
on it and the calls of `SSL_write` made on it: the record it has afterwards, or none
if it has been taken down.
-/

namespace TChat.Server

open TChat.Common TChat.Lib

def queuedOn (p : ConnectionPtr) (actions : List Action) : List Bytes :=
  actions.filterMap fun
    | .queueWrite q packet => if q = p then some packet else none
    | _ => none

def callsOn (p : ConnectionPtr) (actions : List Action) : List SslWriteCall :=
  actions.filterMap fun
    | .sslWrite q call => if q = p then some call else none
    | _ => none

/-- `Fate i s p c c' queued calls`: what an event makes of the connection `p` with
record `c`. -/
inductive Fate (i : Input) (s : ServerApp) (p : ConnectionPtr) (c : ClientConnection) :
    Option ClientConnection → List Bytes → List SslWriteCall → Prop
  | kept : Fate i s p c (some c) [] []
  | edited {c' : ClientConnection} {filter : Option Bool} {actions : List Action} :
      Edit i s p c c' filter actions →
      Fate i s p c (some c') (queuedOn p actions) (callsOn p actions)
  | loggedIn {request : HandshakeRequest} {rest reply : Bytes} :
      Handshakes i c request rest → request.kind = .login →
      i.verifyClient request.username request.password = .authorized →
      reply = createPacketStream .ack (literal "OK|" ++ generateToken i.random) →
      Fate i s p c (some (queueWrite (c.authenticate rest i.now) reply)) [reply] []
  | reattached {request : HandshakeRequest} {rest : Bytes} :
      Handshakes i c request rest → request.kind = .reconnect →
      Fate i s p c (some (c.authenticate rest i.now)) [] []
  | relayed {stream : ClientStream} :
      Streams i c stream → stream.result = .printMessage →
      Fate i s p c (some (c.withBuffer stream.rxBuffer)) [] []
  | hears {packet : Bytes} :
      c.status = .authenticated → Fate i s p c (some (queueWrite c packet)) [packet] []
  | timedOut :
      i.event = .timer → c.status = .authenticated →
      Fate i s p c (some { c with status := .closing }) [] []
  | dropped {buffer : Bytes} {actions : List Action} :
      Drop i s p c buffer actions → Fate i s p c none (queuedOn p actions) (callsOn p actions)
  | removed : i.event = .timer → TimesOut i c → Fate i s p c none [] []

/-! ## Actions of one connection -/

section

variable {p q : ConnectionPtr}

@[simp] theorem queuedOn_append (a b : List Action) :
    queuedOn p (a ++ b) = queuedOn p a ++ queuedOn p b :=
  List.filterMap_append

@[simp] theorem callsOn_append (a b : List Action) :
    callsOn p (a ++ b) = callsOn p a ++ callsOn p b :=
  List.filterMap_append

@[simp] theorem queuedOn_queueWrite (packet : Bytes) :
    queuedOn p [.queueWrite q packet] = if q = p then [packet] else [] := by
  by_cases h : q = p <;> simp [queuedOn, h]

@[simp] theorem callsOn_queueWrite (packet : Bytes) : callsOn p [.queueWrite q packet] = [] :=
  rfl

@[simp] theorem queuedOn_nil : queuedOn p [] = [] := rfl

@[simp] theorem callsOn_nil : callsOn p [] = [] := rfl

@[simp] theorem queuedOn_sslWrites (calls : List SslWriteCall) :
    queuedOn p (calls.map (.sslWrite q)) = [] := by
  simp [queuedOn, List.filterMap_map]

theorem callsOn_sslWrites (calls : List SslWriteCall) :
    callsOn p (calls.map (.sslWrite q)) = if q = p then calls else [] := by
  by_cases h : q = p <;> simp [callsOn, List.filterMap_map, h]

theorem callsOn_audience (audience : List ConnectionPtr) (packet : Bytes) :
    callsOn p (audience.map (.queueWrite · packet)) = [] := by
  simp [callsOn, List.filterMap_map]

theorem queuedOn_audience {audience : List ConnectionPtr} (hnodup : audience.Nodup)
    (packet : Bytes) :
    queuedOn p (audience.map (.queueWrite · packet)) = if p ∈ audience then [packet] else [] := by
  induction audience with
  | nil => rfl
  | cons r audience ih =>
      rw [List.nodup_cons] at hnodup
      rw [List.map_cons, ← List.singleton_append, queuedOn_append, ih hnodup.2,
        queuedOn_queueWrite]
      by_cases hr : r = p
      · subst hr
        simp [hnodup.1]
      · simp [hr, Ne.symm hr]

def Action.Still : Action → Prop
  | .queueWrite _ _ => False
  | .sslWrite _ _ => False
  | _ => True

theorem still_of_forall {actions : List Action} (h : ∀ a ∈ actions, a.Still) :
    queuedOn p actions = [] ∧ callsOn p actions = [] := by
  constructor
  · rw [queuedOn, List.filterMap_eq_nil_iff]
    intro a ha
    have := h a ha
    cases a <;> first | rfl | exact absurd this id
  · rw [callsOn, List.filterMap_eq_nil_iff]
    intro a ha
    have := h a ha
    cases a <;> first | rfl | exact absurd this id

def departure (p : ConnectionPtr) (ssl : Option Nat) : List Action :=
  .disconnect p :: (ssl.toList.map .sslFree ++ [.close p.fd])

theorem departure_still (ssl : Option Nat) : ∀ a ∈ departure p ssl, a.Still := by
  cases ssl <;> simp [departure, Action.Still]

theorem actions_release (now : Time) (ssl : Option Nat) (s : ServerApp) :
    (ClientManager.release now p ssl s).actions = s.actions ++ departure p ssl := by
  cases ssl <;> simp [ClientManager.release, departure]

theorem actions_releaseAll (now : Time) (entries : List (Fd × ClientConnection)) (s : ServerApp) :
    (s.releaseAll now entries).actions =
      s.actions ++ entries.flatMap fun entry => departure (pointer entry) entry.2.ssl := by
  induction entries generalizing s with
  | nil => simp [ServerApp.releaseAll]
  | cons entry rest ih =>
      rw [ServerApp.releaseAll, List.foldl_cons, ← ServerApp.releaseAll, ih, actions_release,
        List.append_assoc]
      rfl

theorem tick_actions (i : Input) (s : ServerApp) :
    ((s.beginEvent i.now).tick i).actions =
      (ClientManager.markTimedOutConnections i (s.beginEvent i.now)).timedOut.flatMap
        fun entry => departure (pointer entry) entry.2.ssl := by
  rw [tick_frame]
  exact (actions_releaseAll _ _ _).trans (List.nil_append _)

theorem tick_still (i : Input) (s : ServerApp) :
    ∀ a ∈ ((s.beginEvent i.now).tick i).actions, a.Still := by
  rw [tick_actions]
  intro a ha
  obtain ⟨entry, _, hmem⟩ := List.mem_flatMap.mp ha
  exact departure_still _ a hmem

end

/-! ## The fate of every connection -/

section

variable {i : Input} {s s' : ServerApp} {p q : ConnectionPtr} {c d : ClientConnection}

theorem TurnedAway.still (h : TurnedAway i s s') : ∀ a ∈ s'.actions, a.Still := by
  intro a ha
  rcases h.actions a ha with ⟨_, rfl⟩ | ⟨_, rfl⟩ | ⟨_, rfl⟩ | ⟨_, rfl⟩ <;> trivial

theorem Edit.elsewhere {c' : ClientConnection} {filter : Option Bool} {actions : List Action}
    (h : Edit i s q d c' filter actions) (hne : q ≠ p) :
    queuedOn p actions = [] ∧ callsOn p actions = [] := by
  cases h <;> simp [hne, callsOn_sslWrites]

theorem Drop.elsewhere {buffer : Bytes} {actions : List Action}
    (h : Drop i s q d buffer actions) (hne : q ≠ p) :
    queuedOn p actions = [] ∧ callsOn p actions = [] := by
  cases h <;> simp [hne, callsOn_sslWrites]

theorem broadcast_log (sender : Option ConnectionPtr) (senderFd : Fd) (packet : Bytes)
    (hactions : s.actions = []) :
    queuedOn q (s.broadcastAndEnable i sender senderFd packet).actions =
        ((s.deref q).filter (isRecipient senderFd q.fd)).toList.map (fun _ => packet) ∧
      callsOn q (s.broadcastAndEnable i sender senderFd packet).actions = [] := by
  have hnodup : ((s.recipients senderFd).map pointer).Nodup :=
    nodup_pointers ((OrderedMap.sorted s.connections).filter _)
  rw [broadcast_actions hactions, ← List.singleton_append, queuedOn_append, callsOn_append,
    callsOn_audience,
    queuedOn_audience hnodup]
  refine ⟨?_, rfl⟩
  rw [show queuedOn q [.broadcast sender packet] = [] from rfl, List.nil_append]
  by_cases hq : ∃ d, s.deref q = some d ∧ isRecipient senderFd q.fd d = true
  · rw [if_pos ((mem_recipients senderFd q).mpr hq)]
    obtain ⟨d, hd, hrecipient⟩ := hq
    simp [hd, Option.filter, hrecipient]
  · rw [if_neg fun hmem => hq ((mem_recipients senderFd q).mp hmem)]
    cases hd : s.deref q with
    | none => rfl
    | some d =>
        have hnot : isRecipient senderFd q.fd d = false := by
          by_contra hrecipient
          exact hq ⟨d, hd, by simpa using hrecipient⟩
        simp [Option.filter, hnot]

theorem fate_of_still (hq : s'.deref q = some c) (h : ∀ a ∈ s'.actions, a.Still) :
    Fate i s q c (s'.deref q) (queuedOn q s'.actions) (callsOn q s'.actions) := by
  obtain ⟨hqueued, hcalls⟩ := still_of_forall (p := q) h
  rw [hq, hqueued, hcalls]
  exact .kept

theorem fate_of_heard {t : ServerApp} {sender : Option ConnectionPtr} {senderFd : Fd}
    {packet : Bytes} (hactions : t.actions = []) (ht : t.deref q = some c) :
    Fate i s q c ((t.broadcastAndEnable i sender senderFd packet).deref q)
      (queuedOn q (t.broadcastAndEnable i sender senderFd packet).actions)
      (callsOn q (t.broadcastAndEnable i sender senderFd packet).actions) := by
  obtain ⟨hqueued, hcalls⟩ :=
    broadcast_log (i := i) (q := q) (s := t) sender senderFd packet hactions
  rw [hqueued, hcalls, ServerApp.deref_broadcastAndEnable, ht, Option.map_some]
  by_cases hrecipient : isRecipient senderFd q.fd c = true
  · have hstatus := ((isRecipient_iff senderFd q.fd c).mp hrecipient).2
    simpa [Option.filter, hrecipient] using Fate.hears hstatus
  · simpa [Option.filter, hrecipient] using Fate.kept

theorem fate_of_tick (hevent : i.event = .timer) (hq : s.deref q = some c) :
    Fate i s q c (((s.beginEvent i.now).tick i).deref q)
      (queuedOn q ((s.beginEvent i.now).tick i).actions)
      (callsOn q ((s.beginEvent i.now).tick i).actions) := by
  obtain ⟨hqueued, hcalls⟩ := still_of_forall (p := q) (tick_still i s)
  rw [hqueued, hcalls, deref_tick, ServerApp.deref_beginEvent, hq, Option.bind_some]
  split_ifs with htimesOut
  · exact .removed hevent htimesOut
  · rcases markIfTimedOut_cases (i := i) c with hsame | ⟨hstatus, -, hclosing⟩
    · rw [hsame]
      exact .kept
    · rw [hclosing]
      exact .timedOut hevent hstatus

/-- What any outcome makes of a connection that was there. -/
theorem fate_of_outcome (hwf : WellFormed s) (h : Outcome i s (.ok s'))
    (hq : s.deref q = some c) :
    Fate i s q c (s'.deref q) (queuedOn q s'.actions) (callsOn q s'.actions) := by
  cases h with
  | idle | console | stopped => exact fate_of_still hq (by simp)
  | @edited p d c' filter actions hp hedit =>
      rw [deref_edited hp hedit.same.1, ServerApp.switchWriteEvent_eq]
      simp only [ServerApp.log_actions, ServerApp.store_actions, ServerApp.beginEvent_actions,
        List.nil_append]
      split_ifs with hqp
      · subst hqp
        obtain rfl : c = d := by simpa [hq] using hp
        exact .edited hedit
      · obtain ⟨hqueued, hcalls⟩ := hedit.elsewhere (Ne.symm hqp)
        rw [hqueued, hcalls, hq]
        exact .kept
  | @dropped p d buffer actions hp hdrop =>
      obtain ⟨hqueued, hcalls⟩ := still_of_forall (p := q) (departure_still (p := p) d.ssl)
      rw [deref_release (s := ((s.beginEvent i.now).setConsoleInputBuffer buffer).log actions)
        i.now d.ssl hp, actions_release, queuedOn_append, callsOn_append, hqueued, hcalls]
      simp only [ServerApp.log_actions, ServerApp.setConsoleInputBuffer_actions,
        ServerApp.beginEvent_actions, List.nil_append, List.append_nil]
      split_ifs with hqp
      · subst hqp
        obtain rfl : c = d := by simpa [hq] using hp
        exact .dropped hdrop
      · obtain ⟨hqueued, hcalls⟩ := hdrop.elsewhere (Ne.symm hqp)
        have hkept : (((s.beginEvent i.now).setConsoleInputBuffer buffer).log actions).deref q =
            some c := hq
        rw [hqueued, hcalls, hkept]
        exact .kept
  | @loggedIn p d request rest session reply hp hshake hkind hverify hsession hreply =>
      rw [ServerApp.deref_congr (ServerApp.enableWriteEvent_connections i p.fd _),
        ServerApp.deref_log, ServerApp.deref_store (s := ClientManager.addSession session
          (s.beginEvent i.now)) (d := queueWrite (d.authenticate rest i.now) reply) hp rfl]
      have hactions : ((((ClientManager.addSession session (s.beginEvent i.now)).store p
          (queueWrite (d.authenticate rest i.now) reply)).log
            [.queueWrite p reply]).enableWriteEvent i p.fd).actions = [.queueWrite p reply] := by
        rw [ServerApp.enableWriteEvent_eq]
        rfl
      rw [hactions, queuedOn_queueWrite, callsOn_queueWrite]
      by_cases hqp : q = p
      · subst hqp
        obtain rfl : c = d := by simpa [hq] using hp
        rw [if_pos rfl, if_pos rfl]
        exact .loggedIn hshake hkind hverify hreply
      · have hkept : (ClientManager.addSession session (s.beginEvent i.now)).deref q = some c := hq
        rw [if_neg hqp, if_neg (Ne.symm hqp), hkept]
        exact .kept
  | @reattached p d request rest session hp hshake hkind hsession htoken hstate =>
      have hstored : ((s.beginEvent i.now).store p (d.authenticate rest i.now)).deref q =
          if q = p then some (d.authenticate rest i.now) else s.deref q :=
        ServerApp.deref_store (s := s.beginEvent i.now) hp rfl
      by_cases hqp : q = p
      · subst hqp
        obtain rfl : c = d := by simpa [hq] using hp
        rw [if_pos rfl] at hstored
        have hfate : Fate i s q c
            (((s.beginEvent i.now).store q (c.authenticate rest i.now)).deref q) [] [] := by
          rw [hstored]
          exact .reattached hshake hkind
        exact hfate
      · rw [if_neg hqp] at hstored
        exact fate_of_still (hstored.trans hq) (by simp)
  | @relayed p d stream session hp hstream hresult hsession =>
      have hstored : ((s.beginEvent i.now).store p (d.withBuffer stream.rxBuffer)).deref q =
          if q = p then some (d.withBuffer stream.rxBuffer) else s.deref q :=
        ServerApp.deref_store (s := s.beginEvent i.now) hp rfl
      by_cases hqp : q = p
      · -- the sender does not hear its own message
        subst hqp
        obtain rfl : c = d := by simpa [hq] using hp
        rw [if_pos rfl] at hstored
        obtain ⟨hqueued, hcalls⟩ := broadcast_log (i := i) (q := q)
          (s := (s.beginEvent i.now).store q (c.withBuffer stream.rxBuffer)) (some q) q.fd
          (ServerApp.clientBroadcast session.username stream.message) rfl
        rw [hqueued, hcalls, ServerApp.deref_broadcastAndEnable, hstored]
        simpa [isRecipient, Option.filter] using Fate.relayed hstream hresult
      · rw [if_neg hqp] at hstored
        exact fate_of_heard rfl (hstored.trans hq)
  | announced => exact fate_of_heard rfl hq
  | turnedAway haway =>
      exact fate_of_still ((ServerApp.deref_congr haway.connections).trans hq) haway.still
  | @admitted fd hevent hfd hclosed hkevent =>
      have hfree := ServerApp.find?_of_openFd hwf hclosed
      refine fate_of_still ?_ (by simp [ServerApp.addConnection, Action.Still])
      rw [deref_addConnection (s := s.beginEvent i.now) i hfree, if_neg]
      · exact hq
      · rintro rfl
        have hnode := (ServerApp.deref_eq_some.mp hq).2
        exact absurd (hwf.deref_ok hq).node_lt (not_lt.mpr hnode.ge)
  | ticked hevent => exact fate_of_tick hevent hq

theorem silent_of_broadcast {t : ServerApp} {sender : Option ConnectionPtr} {senderFd : Fd}
    {packet : Bytes} (hactions : t.actions = []) (ht : t.deref q = none) :
    queuedOn q (t.broadcastAndEnable i sender senderFd packet).actions = [] ∧
      callsOn q (t.broadcastAndEnable i sender senderFd packet).actions = [] := by
  obtain ⟨hqueued, hcalls⟩ :=
    broadcast_log (i := i) (q := q) (s := t) sender senderFd packet hactions
  rw [hqueued, hcalls, ht]
  exact ⟨rfl, rfl⟩

/-- Nothing is sent on a connection that is not there. -/
theorem silent_of_outcome (h : Outcome i s (.ok s')) (hq : s.deref q = none) :
    queuedOn q s'.actions = [] ∧ callsOn q s'.actions = [] := by
  cases h with
  | idle | console | stopped | reattached => exact still_of_forall (by simp)
  | @edited p d c' filter actions hp hedit =>
      have hne : p ≠ q := by
        rintro rfl
        simp [hq] at hp
      rw [ServerApp.switchWriteEvent_eq]
      simpa using hedit.elsewhere hne
  | @dropped p d buffer actions hp hdrop =>
      have hne : p ≠ q := by
        rintro rfl
        simp [hq] at hp
      obtain ⟨hqueued, hcalls⟩ := still_of_forall (p := q) (departure_still (p := p) d.ssl)
      rw [actions_release, queuedOn_append, callsOn_append, hqueued, hcalls]
      simpa using hdrop.elsewhere hne
  | @loggedIn p d request rest session reply hp =>
      have hne : p ≠ q := by
        rintro rfl
        simp [hq] at hp
      rw [ServerApp.enableWriteEvent_eq]
      simp [ClientManager.addSession, hne]
  | @relayed p d stream session hp hstream hresult hsession =>
      have hne : q ≠ p := by
        rintro rfl
        simp [hq] at hp
      have hstored := ServerApp.deref_store (s := s.beginEvent i.now) (q := q)
        (d := d.withBuffer stream.rxBuffer) hp rfl
      rw [if_neg hne, ServerApp.deref_beginEvent, hq] at hstored
      exact silent_of_broadcast rfl hstored
  | announced => exact silent_of_broadcast rfl hq
  | turnedAway haway => exact still_of_forall haway.still
  | admitted => exact still_of_forall (by simp [ServerApp.addConnection, Action.Still])
  | ticked => exact still_of_forall (tick_still i s)

end

end TChat.Server
