import TChat.Server.Proofs.Preservation
/-!
# What an event queues

An event either makes one broadcast, which queues its packet once on every
member of the audience, or it makes none and queues at most a reply to the
connection whose packet it handles.
-/

namespace TChat.Server

open TChat.Common TChat.Lib

/-- The replies of the server, with what they answer. -/
inductive Replies (i : Input) (s : ServerApp) : ConnectionPtr → Bytes → Prop
  | refusal {p : ConnectionPtr} {c : ClientConnection} {request : HandshakeRequest}
      {rest : Bytes} {status : VerifyClientStatus} :
      s.deref p = some c → Handshakes i c request rest → request.kind = .login →
      i.verifyClient request.username request.password = status → status ≠ .authorized →
      Replies i s p (refusal status)
  | registered {p : ConnectionPtr} {c : ClientConnection} {request : HandshakeRequest}
      {rest : Bytes} :
      s.deref p = some c → Handshakes i c request rest → request.kind = .register →
      Replies i s p (createPacketStream .ack (literal "OK"))
  | welcome {p : ConnectionPtr} {c : ClientConnection} {request : HandshakeRequest}
      {rest : Bytes} :
      s.deref p = some c → Handshakes i c request rest → request.kind = .login →
      i.verifyClient request.username request.password = .authorized →
      Replies i s p (createPacketStream .ack (literal "OK|" ++ generateToken i.random))
  | pong {p : ConnectionPtr} {c : ClientConnection} {stream : ClientStream} :
      s.deref p = some c → Streams i c stream → stream.result = .sendPong →
      Replies i s p (createPacketStream .pong [])

/-- The broadcasts of the server: a client's message and a line of the console. -/
inductive Announces (i : Input) (s : ServerApp) : Option ConnectionPtr → Bytes → Prop
  | client {p : ConnectionPtr} {c : ClientConnection} {stream : ClientStream}
      {session : ClientSession} :
      s.deref p = some c → Streams i c stream → stream.result = .printMessage →
      ClientManager.findSesssionFromConnection p s = some session →
      Announces i s (some p) (ServerApp.clientBroadcast session.username stream.message)
  | console {keys : List Int} {line buffer : Bytes} :
      i.event = .console keys →
      readConsoleInput keys s.consoleInputBuffer = .ok (⟨.message, line⟩, buffer) →
      Announces i s none (ServerApp.serverBroadcast line)

def ServerApp.Hears (s : ServerApp) (sender : Option ConnectionPtr) (q : ConnectionPtr) : Prop :=
  sender ≠ some q ∧ ∃ d, s.deref q = some d ∧ d.status = .authenticated

def Quiet (i : Input) (s : ServerApp) : Action → Prop
  | .broadcast _ _ => False
  | .queueWrite q packet => Replies i s q packet
  | _ => True

inductive Performs (i : Input) (s : ServerApp) : List Action → Prop
  | silent {actions : List Action} : (∀ a ∈ actions, Quiet i s a) → Performs i s actions
  | announces {sender : Option ConnectionPtr} {packet : Bytes} {audience : List ConnectionPtr} :
      Announces i s sender packet → audience.Nodup → (∀ q, q ∈ audience ↔ s.Hears sender q) →
      Performs i s (.broadcast sender packet :: audience.map (.queueWrite · packet))

section

variable {i : Input} {s s' : ServerApp} {p q : ConnectionPtr} {c : ClientConnection}

theorem Edit.quiet {c' : ClientConnection} {filter : Option Bool} {actions : List Action}
    (hp : s.deref p = some c) (h : Edit i s p c c' filter actions) :
    ∀ a ∈ actions, Quiet i s a := by
  have hreply {packet : Bytes} (hreplies : Replies i s p packet) :
      ∀ a ∈ [Action.queueWrite p packet], Quiet i s a := by
    simp only [List.mem_singleton, forall_eq]
    exact hreplies
  cases h with
  | flushed =>
      simp only [List.mem_map, forall_exists_index, and_imp, forall_apply_eq_imp_iff₂]
      exact fun _ _ => trivial
  | loginRefused hshake hkind hverify hstatus =>
      exact hreply (.refusal hp hshake hkind hverify hstatus)
  | registered hshake hkind => exact hreply (.registered hp hshake hkind)
  | pong hstream hresult => exact hreply (.pong hp hstream hresult)
  | _ => simp

theorem nodup_pointers {entries : List (Fd × ClientConnection)}
    (hsorted : entries.Pairwise (fun a b => a.1 < b.1)) : (entries.map pointer).Nodup := by
  rw [List.Nodup, List.pairwise_map]
  refine hsorted.imp ?_
  rintro a b hlt heq
  simp only [pointer, ConnectionPtr.mk.injEq] at heq
  exact absurd heq.1 (ne_of_lt hlt)

theorem mem_recipients (senderFd : Fd) (q : ConnectionPtr) :
    q ∈ (s.recipients senderFd).map pointer ↔
      ∃ d, s.deref q = some d ∧ isRecipient senderFd q.fd d = true := by
  obtain ⟨fd, node⟩ := q
  simp only [ServerApp.recipients, List.mem_map, List.mem_filter, OrderedMap.mem_entries,
    Prod.exists, pointer, ConnectionPtr.mk.injEq, ServerApp.deref_eq_some]
  constructor
  · rintro ⟨_, d, ⟨hfind, hrecipient⟩, rfl, rfl⟩
    exact ⟨d, ⟨hfind, rfl⟩, hrecipient⟩
  · rintro ⟨d, ⟨hfind, rfl⟩, hrecipient⟩
    exact ⟨fd, d, ⟨hfind, hrecipient⟩, rfl, rfl⟩

theorem broadcast_actions {sender : Option ConnectionPtr} {senderFd : Fd} {packet : Bytes}
    (hactions : s.actions = []) :
    (s.broadcastAndEnable i sender senderFd packet).actions =
      .broadcast sender packet ::
        ((s.recipients senderFd).map pointer).map (.queueWrite · packet) := by
  rw [ServerApp.broadcastAndEnable_eq]
  simp only [hactions, List.nil_append, List.singleton_append, List.map_map]
  rfl

theorem isRecipient_iff (senderFd fd : Fd) (d : ClientConnection) :
    isRecipient senderFd fd d = true ↔ fd ≠ senderFd ∧ d.status = .authenticated := by
  simp [isRecipient]

theorem release_actions (now : Time) (ssl : Option Nat) (h : ∀ a ∈ s.actions, Quiet i s' a) :
    ∀ a ∈ (ClientManager.release now p ssl s).actions, Quiet i s' a := by
  simp only [ClientManager.release, ServerApp.closeFd_actions, ServerApp.log_actions,
    List.mem_append, List.mem_singleton]
  rintro a (((ha | rfl) | ha) | rfl)
  · exact h a ha
  · trivial
  · cases ssl with
    | none => simp at ha
    | some ssl =>
        simp only [List.mem_singleton] at ha
        exact ha ▸ trivial
  · trivial

theorem releaseAll_actions (now : Time) (entries : List (Fd × ClientConnection))
    (h : ∀ a ∈ s.actions, Quiet i s' a) :
    ∀ a ∈ (s.releaseAll now entries).actions, Quiet i s' a := by
  induction entries generalizing s with
  | nil => exact h
  | cons entry rest ih =>
      rw [ServerApp.releaseAll, List.foldl_cons, ← ServerApp.releaseAll]
      exact ih (release_actions now _ h)

theorem nonneg_of_deref (hwf : WellFormed s) (h : s.deref q = some c) : q.fd ≠ -1 := by
  have := (hwf.deref_ok h).nonneg
  intro hfd
  rw [hfd] at this
  simp at this

theorem relayed_actions (hp : s.deref p = some c) (rest packet : Bytes) :
    ∃ audience : List ConnectionPtr,
      audience.Nodup ∧ (∀ q, q ∈ audience ↔ s.Hears (some p) q) ∧
      (((s.beginEvent i.now).store p (c.withBuffer rest)).broadcastAndEnable i (some p) p.fd
        packet).actions =
        .broadcast (some p) packet :: audience.map (.queueWrite · packet) := by
  refine ⟨(((s.beginEvent i.now).store p (c.withBuffer rest)).recipients p.fd).map pointer,
    nodup_pointers ((OrderedMap.sorted _).filter _), fun q => ?_, broadcast_actions rfl⟩
  rw [mem_recipients]
  have hstored : ((s.beginEvent i.now).store p (c.withBuffer rest)).deref q =
      if q = p then some (c.withBuffer rest) else s.deref q :=
    ServerApp.deref_store (s := s.beginEvent i.now) hp rfl
  rw [hstored]
  simp only [isRecipient_iff, ServerApp.Hears, ne_eq, Option.some.injEq]
  by_cases hq : q = p
  · subst hq
    simp
  · simp only [hq, if_false, Ne.symm hq, not_false_eq_true, true_and]
    constructor
    · rintro ⟨d, hd, _, hstatus⟩
      exact ⟨d, hd, hstatus⟩
    · rintro ⟨d, hd, hstatus⟩
      exact ⟨d, hd, fun hfd => hq (pointer_eq hd hp hfd), hstatus⟩

/-- What any outcome does. -/
theorem Outcome.performs (hwf : WellFormed s) (h : Outcome i s (.ok s')) :
    Performs i s s'.actions := by
  cases h with
  | idle | console | stopped | reattached => exact .silent (by simp)
  | edited hp hedit =>
      rw [ServerApp.switchWriteEvent_eq]
      exact .silent (by simpa using hedit.quiet hp)
  | @dropped p c buffer actions hp hdrop =>
      refine .silent (release_actions _ _ ?_)
      have hquiet : ∀ a ∈ actions, Quiet i s a := by
        cases hdrop with
        | flushed =>
            simp only [List.mem_map, forall_exists_index, and_imp, forall_apply_eq_imp_iff₂]
            exact fun _ _ => trivial
        | _ => simp
      simpa using hquiet
  | @loggedIn p c request rest session reply hp hshake hkind hverify hsession hreply =>
      rw [ServerApp.enableWriteEvent_eq]
      refine .silent ?_
      rintro a ha
      have ha' : a = .queueWrite p reply := by
        simpa [ClientManager.addSession] using ha
      subst ha' hreply
      exact Replies.welcome hp hshake hkind hverify
  | @relayed p c stream session hp hstream hresult hsession =>
      obtain ⟨audience, hnodup, haudience, hactions⟩ := relayed_actions (i := i) hp
        stream.rxBuffer (ServerApp.clientBroadcast session.username stream.message)
      rw [hactions]
      exact .announces (.client hp hstream hresult hsession) hnodup haudience
  | @announced keys line buffer hevent hread =>
      rw [broadcast_actions rfl]
      refine .announces (.console hevent hread)
        (nodup_pointers ((OrderedMap.sorted _).filter _)) fun q => ?_
      rw [mem_recipients]
      simp only [isRecipient_iff, ServerApp.Hears, ne_eq, reduceCtorEq, not_false_eq_true,
        true_and]
      constructor
      · rintro ⟨d, hd, _, hstatus⟩
        exact ⟨d, hd, hstatus⟩
      · rintro ⟨d, hd, hstatus⟩
        exact ⟨d, hd, nonneg_of_deref hwf hd, hstatus⟩
  | turnedAway haway =>
      refine .silent ?_
      rintro a ha
      rcases haway.actions a ha with ⟨_, rfl⟩ | ⟨_, rfl⟩ | ⟨_, rfl⟩ | ⟨_, rfl⟩ <;> trivial
  | @admitted fd hevent hfd hclosed hkevent =>
      refine .silent ?_
      rintro a ha
      have ha' : a = .accept fd ∨ a = .sslNew s.nextSsl := by
        simpa [ServerApp.addConnection] using ha
      rcases ha' with rfl | rfl <;> trivial
  | ticked =>
      have hmarked : ∀ a ∈ (ClientManager.markTimedOutConnections i
          (s.beginEvent i.now)).actions, Quiet i s a := by
        simp [ClientManager.markTimedOutConnections]
      have hreleased := releaseAll_actions i.now
        (ClientManager.markTimedOutConnections i (s.beginEvent i.now)).timedOut hmarked
      rw [tick_frame]
      exact .silent hreleased

/-! ## What an event takes down -/

theorem mem_release (now : Time) (ssl : Option Nat) :
    .disconnect q ∈ (ClientManager.release now p ssl s).actions ↔
      q = p ∨ .disconnect q ∈ s.actions := by
  cases ssl <;> simp [ClientManager.release, or_comm]

theorem mem_releaseAll (now : Time) (entries : List (Fd × ClientConnection)) :
    .disconnect q ∈ (s.releaseAll now entries).actions ↔
      q ∈ entries.map pointer ∨ .disconnect q ∈ s.actions := by
  induction entries generalizing s with
  | nil => simp [ServerApp.releaseAll]
  | cons entry rest ih =>
      rw [ServerApp.releaseAll, List.foldl_cons, ← ServerApp.releaseAll, ih, mem_release,
        List.map_cons, List.mem_cons, pointer, or_left_comm, or_assoc]

theorem Edit.not_disconnect {c' : ClientConnection} {filter : Option Bool}
    {actions : List Action} (h : Edit i s p c c' filter actions) : .disconnect q ∉ actions := by
  cases h <;> simp

theorem Outcome.disconnects (h : Outcome i s (.ok s'))
    (hmem : .disconnect q ∈ s'.actions) : (∃ c, s.deref q = some c) ∧ s'.deref q = none := by
  cases h with
  | idle | console | stopped | reattached => simp at hmem
  | edited _ hedit =>
      rw [ServerApp.switchWriteEvent_eq] at hmem
      exact absurd (by simpa using hmem) hedit.not_disconnect
  | @dropped p c buffer actions hp hdrop =>
      have hquiet : .disconnect q ∉ actions := by
        cases hdrop <;> simp
      have hq : q = p := by
        rw [mem_release] at hmem
        simpa [hquiet] using hmem
      subst hq
      refine ⟨⟨c, hp⟩, ?_⟩
      rw [deref_release (s := ((s.beginEvent i.now).setConsoleInputBuffer buffer).log actions)
        i.now c.ssl hp, if_pos rfl]
  | loggedIn =>
      rw [ServerApp.enableWriteEvent_eq] at hmem
      simp [ClientManager.addSession] at hmem
  | relayed | announced =>
      rw [broadcast_actions rfl] at hmem
      simp at hmem
  | turnedAway haway =>
      rcases haway.actions _ hmem with ⟨_, h⟩ | ⟨_, h⟩ | ⟨_, h⟩ | ⟨_, h⟩ <;> simp at h
  | admitted => simp [ServerApp.addConnection] at hmem
  | ticked =>
      rw [tick_frame] at hmem
      have hreleased := (mem_releaseAll i.now _).mp hmem
      have htimedOut : q ∈ (ClientManager.markTimedOutConnections i
          (s.beginEvent i.now)).timedOut.map pointer := by
        simpa [ClientManager.markTimedOutConnections] using hreleased
      obtain ⟨c, hc, htimesOut⟩ := (mem_timedOut q).mp htimedOut
      refine ⟨⟨c, hc⟩, ?_⟩
      rw [deref_tick, hc, Option.bind_some, if_pos htimesOut]

end

end TChat.Server
