import TChat.Server.Sessions
/-!
# Every queue has a wakeup

The two flags of a connection, its queue and its write filter in the kernel are
written by reads, flushes, replies and the broadcasts of others.  Whatever the
order, a queue that is not empty will be flushed: the filter is enabled, or the
socket is waited on for TLS to read.
-/

namespace TChat.Server

open TChat.Common TChat.Lib

/-- The flags of a connection agree with its queue and its write filter. -/
structure Awake (c : ClientConnection) (filter : Bool) : Prop where
  exclusive : ¬(c.readWaitingForWrite = true ∧ c.writeWaitingForRead = true)
  reading : c.readWaitingForWrite = true → filter = true
  writing : c.writeWaitingForRead = true → c.txQueue ≠ []
  queued : c.txQueue ≠ [] → filter = true ∨ c.writeWaitingForRead = true

section

variable {i : Input} {s s' : ServerApp} {p : ConnectionPtr} {c c' : ClientConnection}
  {filter : Bool}

theorem awake_of_quiet (hreading : c.readWaitingForWrite = false)
    (hwriting : c.writeWaitingForRead = false) (hqueued : c.txQueue ≠ [] → filter = true) :
    Awake c filter := by
  refine ⟨by simp [hreading], by simp [hreading], by simp [hwriting], ?_⟩
  exact fun h => .inl (hqueued h)

theorem awake_flushed (hconsistent : c.toOutgoing.Consistent) {flush : Flush}
    (hflush : flushLoop storeOffset i.sslWrite c.toOutgoing.notWaiting = some flush)
    (hresult : flush.result ≠ .fatalError) (hreading : c.readWaitingForWrite = false)
    (hkevent : i.kevent p.fd = true) :
    Awake (c.withOutgoing flush.outgoing)
      (switched i p.fd (flushFilter flush.result) filter) := by
  have hspec := flush_spec hconsistent hflush
  have hwaiting := flushLoop_waiting hflush hresult
  have hswitched (old : Bool) (new : Option Bool) : switched i p.fd new old = new.getD old :=
    if_pos hkevent
  rw [hswitched]
  cases hcase : flush.result with
  | fatalError => exact absurd hcase hresult
  | queueEmpty =>
      refine awake_of_quiet hreading ?_ fun h => absurd (hspec.drained hcase) h
      rw [ClientConnection.withOutgoing_toOutgoing, hwaiting, hcase]
      rfl
  | writeWait =>
      refine awake_of_quiet hreading ?_ fun _ => rfl
      rw [ClientConnection.withOutgoing_toOutgoing, hwaiting, hcase]
      rfl
  | readWait =>
      have hwaits : (c.withOutgoing flush.outgoing).writeWaitingForRead = true := by
        rw [ClientConnection.withOutgoing_toOutgoing, hwaiting, hcase]
        rfl
      have hleft : flush.outgoing.txQueue ≠ [] := by
        intro hnil
        have hempty : flush.outgoing.unsent = [] := by
          rw [Outgoing.unsent, hnil]
        simpa [hcase] using hspec.empty_iff.mpr hempty
      refine ⟨?_, ?_, fun _ => hleft, fun _ => .inr hwaits⟩
      · rintro ⟨h, _⟩
        simp [hreading] at h
      · intro h
        simp [hreading] at h

theorem awake_queueWrite {packet : Bytes} (hreading : c.readWaitingForWrite = false)
    (hwriting : c.writeWaitingForRead = false) (hkevent : i.kevent p.fd = true) :
    Awake (queueWrite c packet) (switched i p.fd (some true) filter) :=
  awake_of_quiet hreading hwriting fun _ => if_pos hkevent

/-- A read that queues nothing clears the flag it was waiting under. -/
theorem Awake.read (h : Awake c filter) (hreads : c.Reads i.event) (rest : Bytes) :
    Awake (c.withBuffer rest) filter := by
  refine awake_of_quiet rfl hreads.1 fun hqueue => ?_
  rcases h.queued hqueue with hfilter | hwriting
  · exact hfilter
  · simp [hreads.1] at hwriting

theorem awake_of_edit (hconsistent : c.toOutgoing.Consistent) (h : Awake c filter)
    (hkevent : i.kevent p.fd = true) {new : Option Bool} {actions : List Action}
    (hedit : Edit i s p c c' new actions) : Awake c' (switched i p.fd new filter) := by
  have hsame : switched i p.fd none filter = filter := by
    rw [switched, Option.getD_none, ite_self]
  cases hedit with
  | flushed hflushes hflush hresult =>
      exact awake_flushed hconsistent hflush hresult hflushes.1 hkevent
  | nothingRead hreads =>
      rw [hsame]
      exact h.read hreads c.rxBuffer
  | wantWrite hreads =>
      have hfilter : switched i p.fd (some true) filter = true := if_pos hkevent
      refine ⟨?_, fun _ => hfilter, ?_, fun _ => .inl hfilter⟩
      · rintro ⟨_, hwriting⟩
        simp [hreads.1] at hwriting
      · intro hwriting
        simp [hreads.1] at hwriting
  | handshakeIncomplete hreceives =>
      rw [hsame]
      exact h.read hreceives.reads _
  | loginRefused hshake | registered hshake =>
      exact awake_of_quiet rfl hshake.reads.1 fun _ => if_pos hkevent
  | reconnectIgnored hshake =>
      rw [hsame]
      exact h.read hshake.reads _
  | streamIdle hstream | streamInvalid hstream | pingUnanswered hstream =>
      rw [hsame]
      exact h.read hstream.reads _
  | pong hstream => exact awake_of_quiet rfl hstream.reads.1 fun _ => if_pos hkevent

theorem awake_of_change (hconsistent : c.toOutgoing.Consistent)
    (h : Awake c (s.writeFilter p.fd)) (hkevent : i.kevent p.fd = true)
    (hchange : Change i s p c c' filter) : Awake c' filter := by
  cases hchange with
  | kept => exact h
  | edited hedit => exact awake_of_edit hconsistent h hkevent hedit
  | loggedIn hshake => exact awake_queueWrite rfl hshake.reads.1 hkevent
  | reattached hshake =>
      have hread := h.read hshake.reads c.rxBuffer
      exact ⟨hread.exclusive, hread.reading, hread.writing, hread.queued⟩
  | relayed hstream => exact h.read hstream.reads _
  | hears hstatus =>
      cases hwriting : c.writeWaitingForRead with
      | false =>
          have hfilter : switched i p.fd (some true) (s.writeFilter p.fd) = true :=
            if_pos hkevent
          rw [if_neg (by simp), hfilter]
          exact ⟨by simp [queueWrite, Outgoing.queueWrite, hwriting], fun _ => rfl,
            by simp [queueWrite, Outgoing.queueWrite, hwriting], fun _ => .inl rfl⟩
      | true =>
          refine ⟨fun both => h.exclusive both, ?_, ?_, fun _ => .inr hwriting⟩
          · intro hreading
            exact absurd ⟨hreading, hwriting⟩ h.exclusive
          · simp [queueWrite, Outgoing.queueWrite]
  | timedOut => exact ⟨h.exclusive, h.reading, h.writing, h.queued⟩

end

variable {now : Time} {history : List (Transition ServerApp Input)} {s : ServerApp}

/-- As long as `kevent` works, in every reachable state the flags of every
connection agree with its queue and its write filter: what is queued has a wakeup. -/
theorem queued_data_has_wakeup (hrun : ServerRun now history s)
    (hkevent : ∀ t ∈ history, ∀ fd, t.input.kevent fd = true) :
    ∀ p c, s.deref p = some c → Awake c (s.writeFilter p.fd) := by
  refine hrun.invariant_of (fun t => ∀ fd, t.input.kevent fd = true)
    (fun _ s => ∀ p c, s.deref p = some c → Awake c (s.writeFilter p.fd))
    ?_ ?_ hkevent
  · intro p c hp
    simp [initialState, ServerApp.deref] at hp
  · intro history s s' i hrun hawake hstep hkevent p c' hp'
    have hwf := wellFormed_of_run hrun
    rcases traced_of_outcome hwf (outcome_of_run hrun hstep) hp' with
      ⟨_, _, _, rfl, _⟩ | ⟨c, hp, hchange⟩
    · exact awake_of_quiet rfl rfl (by simp [ClientConnection.create])
    · exact awake_of_change (hwf.deref_ok hp).consistent (hawake p c hp) (hkevent p.fd) hchange

/-- `queued_data_has_wakeup` when the answer to a login waits to be sent. -/
theorem queued_data_has_wakeup_loggedIn : ∃ history s, ServerRun 0 history s ∧
    ∃ c, s.deref ⟨5, 0⟩ = some c ∧ c.txQueue ≠ [] ∧ Awake c (s.writeFilter 5) := by
  obtain ⟨history, s, hrun, hinputs, h⟩ := Run.exists_of_execute_inputs step
    [accepting 5, receiving 5 (loginPacket (literal "a") (literal "b"))] (initialState 0)
    (fun _ s => (s.deref ⟨5, 0⟩).any (·.txQueue ≠ []))
    (by decide +kernel)
  simp only [Option.any_eq_true, decide_eq_true_eq] at h
  obtain ⟨c, hc, hqueue⟩ := h
  have hkevent : ∀ t ∈ history, ∀ fd, t.input.kevent fd = true := by
    intro t ht fd
    have hmem : t.input ∈ history.map (·.input) := List.mem_map_of_mem ht
    rw [hinputs] at hmem
    simp only [List.mem_cons, List.not_mem_nil, or_false] at hmem
    rcases hmem with h | h <;> rw [h] <;> rfl
  exact ⟨history, s, hrun, c, hc, hqueue, queued_data_has_wakeup hrun hkevent _ c hc⟩

end TChat.Server
