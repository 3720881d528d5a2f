import TChat.Client.Wakeups
import TChat.Server.Proofs.Primitives
/-!
# Losing the connection

The client leaves its loop when a flush fails, when the server closes the stream and when
the server has been silent for too long.  When a read fails, or a packet cannot be
accepted, it drops the connection and stays in the loop: what is typed from then on is
shown and goes nowhere.
-/

namespace TChat.Client

open TChat.Common TChat.Lib
open TChat.Server (readOutcome)

/-- The errors of `SSL_read` for which `handle_read` returns `FatalError`. -/
def Fatal (error : SslError) : Prop :=
  error ≠ .wantRead ∧ error ≠ .wantWrite ∧ error ≠ .zeroReturn ∧ error ≠ .syscall .eagain

instance (error : SslError) : Decidable (Fatal error) := inferInstanceAs (Decidable (_ ∧ _))

/-- Behind packets that `process_data_stream` accepts comes one that it does not. -/
inductive Rejected : Bytes → Prop
  | front {buffer : Bytes} :
      (processDataStream buffer).1.status = .invalidProtocolError → Rejected buffer
  | later {buffer : Bytes} : (processDataStream buffer).1.waits = false →
      (processDataStream buffer).1.status ≠ .invalidProtocolError →
      Rejected (processDataStream buffer).2 → Rejected buffer

/-- An event that reads on a live connection of a running client, and the read fails or
brings bytes that are not accepted. -/
inductive LosesUnnoticed (i : Input) (s : ClientApp) : Prop
  | failed {error : SslError} : s.running = true → s.connection.Live →
      s.connection.Reads i.event → readOutcome i.sslRead = some (.failed error) → Fatal error →
      LosesUnnoticed i s
  | rejected {bytes : Bytes} : s.running = true → s.connection.Live →
      s.connection.Reads i.event → readOutcome i.sslRead = some (.received bytes) →
      Rejected (s.connection.rxBuffer ++ bytes) → LosesUnnoticed i s

def ownMessages (actions : List Action) : List Bytes :=
  actions.filterMap fun
    | .print message .self _ => some message
    | _ => none

/-- A step that drops the connection ends the loop, and a message that a running client
shows as its own is queued on a live connection. -/
structure Attentive (t : Transition ClientApp Input) : Prop where
  stops : 0 ≤ t.pre.connection.fd → t.post.connection.fd = -1 → t.post.running = false
  queues : ∀ shown message, t.pre.running = true →
    ownMessages t.post.actions = ownMessages t.pre.actions ++ shown → message ∈ shown →
    t.pre.connection.Live ∧ t.post.connection.txQueue =
      t.pre.connection.txQueue ++ [createPacketStream .message message]

/-! ## Bytes that are not accepted -/

theorem rejected_iff {buffer : Bytes} :
    Rejected buffer ↔ (packets.drain buffer).buffer = none := by
  constructor
  · intro h
    induction h with
    | @front buffer hinvalid =>
        have hwaits : (processDataStream buffer).1.waits = false := by
          simp [ProcessStreamResult.waits, hinvalid]
        have hfront : packets.front buffer = .stop (processDataStream buffer).1 := by
          simp [packets, packetFront, hwaits, hinvalid]
        rw [Reader.drain_stop hfront]
    | @later buffer hwaits hvalid _ ih =>
        have hfront : packets.front buffer =
            .item (processDataStream buffer).1 (processDataStream buffer).2 := by
          simp [packets, packetFront, hwaits, hvalid]
        rw [Reader.drain_item hfront]
        exact ih
  · intro h
    induction hlength : buffer.length using Nat.strong_induction_on generalizing buffer with
    | _ n ih =>
        by_cases hwaits : (processDataStream buffer).1.waits
        · have hfront : packets.front buffer = .wait := by
            simp [packets, packetFront, hwaits]
          simp [Reader.drain_wait hfront] at h
        · by_cases hvalid : (processDataStream buffer).1.status = .invalidProtocolError
          · exact .front hvalid
          · have hfront : packets.front buffer =
                .item (processDataStream buffer).1 (processDataStream buffer).2 := by
              simp [packets, packetFront, hwaits, hvalid]
            have hshorter := packets.shorter hfront
            rw [Reader.drain_item hfront] at h
            exact .later (by simpa using hwaits) hvalid (ih _ (hlength ▸ hshorter) h rfl)

/-! ## What is shown -/

section

variable {i : Input} {s s' : ClientApp}

@[simp] theorem ownMessages_append (a b : List Action) :
    ownMessages (a ++ b) = ownMessages a ++ ownMessages b :=
  List.filterMap_append

@[simp] theorem ownMessages_sslWrites (calls : List SslWriteCall) :
    ownMessages (calls.map .sslWrite) = [] := by
  simp [ownMessages, List.filterMap_map]

theorem ownMessages_filter (actions : List Action) :
    ownMessages (actions.filter (!·.waits)) = ownMessages actions := by
  rw [ownMessages, ownMessages, List.filterMap_filter]
  congr 1
  funext action
  cases action with
  | handled result => simp
  | _ => rfl

theorem ownMessages_responses (result : ProcessStreamResult) :
    ownMessages (responses result) = [] := by
  unfold responses
  cases result.status with
  | printMessage => dsimp only; split_ifs <;> rfl
  | _ => rfl

theorem Responded.ownMessages_eq {reading : Reading UInt8 ProcessStreamResult}
    (h : Responded s s' reading) : ownMessages s'.actions = ownMessages s.actions := by
  have hnone : ownMessages (reading.results.flatMap responses) = [] := by
    induction reading.results with
    | nil => rfl
    | cons result results ih =>
        rw [List.flatMap_cons, ownMessages_append, ownMessages_responses, ih, List.nil_append]
  rw [← ownMessages_filter, h.actions, ownMessages_append, ownMessages_filter, hnone,
    List.append_nil]

/-- The loop goes on only if it did before, and nothing is shown as the user's own. -/
structure Mute (s s' : ClientApp) : Prop where
  running : s'.running = true → s.running = true
  shown : ownMessages s'.actions = ownMessages s.actions

namespace Mute

theorem refl (s : ClientApp) : Mute s s := ⟨id, rfl⟩

theorem trans {t : ClientApp} (h : Mute s t) (h' : Mute t s') : Mute s s' :=
  ⟨fun hrunning => h.running (h'.running hrunning), h'.shown.trans h.shown⟩

theorem withConnection (h : Mute s s') (c : ClientConnection) : Mute s (s'.withConnection c) :=
  ⟨h.running, h.shown⟩

theorem log (h : Mute s s') {actions : List Action} (hnone : ownMessages actions = []) :
    Mute s (s'.log actions) :=
  ⟨h.running, by simp [h.shown, hnone]⟩

theorem stop (h : Mute s s') : Mute s s'.stop :=
  ⟨fun hrunning => by simp at hrunning, h.shown⟩

theorem disconnect (h : Mute s s') : Mute s s'.disconnect := by
  have hlogged : Mute s (s'.log [.disconnect]) := h.log rfl
  unfold ClientApp.disconnect
  dsimp only
  split_ifs
  · exact ⟨hlogged.running, hlogged.shown⟩
  · exact ⟨hlogged.running, hlogged.shown⟩

theorem print (h : Mute s s') (kind : PrintKind) (hkind : kind ≠ .self)
    (message sender : Bytes) : Mute s (s'.printMessage message kind sender) := by
  have hnone : ownMessages [.print message kind sender] = [] := by
    cases kind <;> first | rfl | exact absurd rfl hkind
  exact h.log hnone

theorem enableWriteEvent (h : Mute s s') (i : Input) : Mute s (s'.enableWriteEvent i) := by
  unfold ClientApp.enableWriteEvent
  split_ifs <;> exact ⟨h.running, h.shown⟩

theorem disableWriteEvent (h : Mute s s') (i : Input) : Mute s (s'.disableWriteEvent i) := by
  unfold ClientApp.disableWriteEvent
  split_ifs <;> exact ⟨h.running, h.shown⟩

theorem queueAndEnable (h : Mute s s') (i : Input) (packet : Bytes) :
    Mute s (s'.queueAndEnable i packet) := by
  unfold ClientApp.queueAndEnable
  dsimp only
  split_ifs
  · exact (h.withConnection _).enableWriteEvent i
  · exact h.withConnection _

theorem handleFlushResult (h : Mute s s') (i : Input) (result : FlushResult) :
    Mute s (s'.handleFlushResult i result) := by
  unfold ClientApp.handleFlushResult
  cases result with
  | queueEmpty =>
      dsimp only
      split_ifs
      · exact h.disconnect
      · exact h.disableWriteEvent i
      · exact h
  | readWait => exact (h.withConnection _).disableWriteEvent i
  | writeWait => exact h.enableWriteEvent i
  | fatalError => exact h.disconnect.stop

theorem flush (h : Mute s s') {t : ClientApp} (hflush : s'.flush i = .ok t) : Mute s t := by
  unfold ClientApp.flush at hflush
  cases hcall : flushWrite s'.connection i.sslWrite with
  | none => simp [hcall] at hflush
  | some outcome =>
      obtain ⟨result, c, calls⟩ := outcome
      simp only [hcall, Except.ok.injEq] at hflush
      subst hflush
      exact ((h.withConnection c).log (ownMessages_sslWrites calls)).handleFlushResult i result

theorem read (h : Mute s s') {t : ClientApp} (hread : s'.read i = .ok t) : Mute s t := by
  unfold ClientApp.read at hread
  cases hcall : handleRead s'.connection i.sslRead with
  | none => simp [hcall] at hread
  | some outcome =>
      obtain ⟨result, c, unused⟩ := outcome
      simp only [hcall, Except.ok.injEq] at hread
      subst hread
      unfold ClientApp.handleReadResult
      cases result with
      | dataReceived =>
          obtain ⟨-, hlive, bytes, rfl⟩ | h' | h' | h' := handleRead_cases hcall
          · have hresponded := ClientApp.processReceivedData_responded
              (s := s'.withConnection
                { s'.connection with
                  rxBuffer := s'.connection.rxBuffer ++ bytes, readWaitingForWrite := false })
              ⟨hlive.fd, hlive.ssl, hlive.status⟩ i.now
            exact h.trans
              ⟨fun hrunning => hresponded.running ▸ hrunning, hresponded.ownMessages_eq⟩
          all_goals simp at h'
      | fatalError => exact ((h.withConnection c).print .error (by decide) _ _).disconnect
      | wantRead | ignored => exact h.withConnection c
      | wantWrite => exact (h.withConnection _).enableWriteEvent i
      | connectionClosed =>
          exact ((h.withConnection c).print .error (by decide) _ _).disconnect.stop

end Mute

/-- What a step shows as the user's own is a line that it has queued. -/
theorem step_shown (hstep : ClientApp.step i s = .ok s') :
    Mute s s' ∨ ∃ line, ownMessages s'.actions = ownMessages s.actions ++ [line] ∧
      s'.running = s.running ∧
      (s.connection.Live → s'.connection.Live) ∧
      s'.connection.txQueue = s.connection.txQueue ++ [createPacketStream .message line] := by
  cases ClientApp.dispatched_of_step hstep with
  | timer _ hticked =>
      rw [hticked, ClientApp.handleTimerEvent]
      split_ifs
      · exact .inl ((Mute.refl s).print .error (by decide) _ _).disconnect.stop
      · exact .inl ((Mute.refl s).queueAndEnable i _)
  | console _ hwritten =>
      unfold ClientApp.consoleWriteEvent at hwritten
      split at hwritten
      · simp at hwritten
      · rename_i result inputBuffer hconsole
        simp only [Except.ok.injEq] at hwritten
        subst hwritten
        have hmute : Mute s { s with consoleInputBuffer := inputBuffer } := ⟨id, rfl⟩
        unfold ClientApp.handleConsoleInputResult
        cases result.status with
        | message =>
            have hqueued := hmute.queueAndEnable i (createPacketStream .message result.buffer)
            refine .inr ⟨result.buffer, ?_, ?_, ?_, ?_⟩
            · have hown : ownMessages [.print result.buffer .self []] = [result.buffer] := rfl
              rw [ClientApp.printMessage, ClientApp.log_actions, ownMessages_append,
                hqueued.shown, hown]
            all_goals
              dsimp only [ClientApp.printMessage, ClientApp.log]
              unfold ClientApp.queueAndEnable ClientApp.enableWriteEvent
              dsimp only
              split_ifs <;> first | rfl | exact fun h => ⟨h.fd, h.ssl, h.status⟩
        | quit => exact .inl (hmute.print .system (by decide) _ _).stop
        | invalidCommand => exact .inl (hmute.print .error (by decide) _ _)
        | noInput => exact .inl hmute
  | waits _ hsame => exact .inl (hsame ▸ .refl s)
  | flushes _ _ hflush => exact .inl (((Mute.refl s).withConnection _).flush hflush)
  | reads _ hread => exact .inl (((Mute.refl s).withConnection _).read hread)

/-! ## Live connections -/

theorem EntersChat.live {s₀ : ClientApp} (h : EntersChat s₀) : s₀.connection.Live := by
  cases h with
  | login _ _ hchat =>
      unfold ClientApp.initChat at hchat
      dsimp only at hchat
      split_ifs at hchat with hopen hstatus
      all_goals simp only [Prod.mk.injEq, Bool.false_eq_true, false_and, true_and] at hchat
      rw [not_or, not_lt] at hopen
      rw [← hchat]
      exact ⟨hopen.1, hopen.2, by simp [not_not.mp hstatus]⟩

theorem readLoop_cases {reads unused : List SslRead} {c c' : ClientConnection}
    {result : ReadResult} (h : readLoop reads c = some (result, c', unused)) :
    (∃ bytes, readOutcome reads = some (.received bytes) ∧ result = .dataReceived ∧
      c' = { c with rxBuffer := c.rxBuffer ++ bytes, readWaitingForWrite := false }) ∨
    ∃ error, readOutcome reads = some (.failed error) ∧
      (Fatal error ∧ result = .fatalError ∧ c' = c ∨
        ¬Fatal error ∧ (∃ waiting, c' = { c with readWaitingForWrite := waiting }) ∧
          (result = .wantRead ∨ result = .wantWrite ∨ result = .connectionClosed)) := by
  fun_induction readLoop reads c with
  | case1 => simp at h
  | case2 bytes more c hbad => simp at h
  | case3 bytes more c hgood =>
      simp only [Option.some.injEq, Prod.mk.injEq] at h
      obtain ⟨rfl, rfl, -⟩ := h
      exact .inl ⟨bytes, rfl, rfl, rfl⟩
  | case4 more c | case5 more c =>
      simp only [Option.some.injEq, Prod.mk.injEq] at h
      obtain ⟨rfl, rfl, -⟩ := h
      exact .inr ⟨_, rfl, .inr ⟨by decide, ⟨_, rfl⟩, by simp⟩⟩
  | case6 more c | case8 more c =>
      simp only [Option.some.injEq, Prod.mk.injEq] at h
      obtain ⟨rfl, rfl, -⟩ := h
      exact .inr ⟨_, rfl, .inr ⟨by decide, ⟨c.readWaitingForWrite, rfl⟩, by simp⟩⟩
  | case7 more c ih => exact ih h
  | case9 error more c hread hwrite hzero hintr hagain =>
      simp only [Option.some.injEq, Prod.mk.injEq] at h
      obtain ⟨rfl, rfl, -⟩ := h
      have houtcome : readOutcome (.failed error :: more) = some (.failed error) := by
        unfold readOutcome
        split <;> simp_all
      exact .inr ⟨error, houtcome, .inl ⟨⟨hread, hwrite, hzero, hagain⟩, rfl, rfl⟩⟩

theorem handleRead_live {c : ClientConnection} (h : c.Live) (reads : List SslRead) :
    handleRead c reads = readLoop reads c := by
  rw [handleRead, if_neg (not_lt.mpr h.fd), if_neg h.ssl, if_neg h.status]

def ReadLoses (i : Input) (rxBuffer : Bytes) : Prop :=
  (∃ error, readOutcome i.sslRead = some (.failed error) ∧ Fatal error) ∨
    ∃ bytes, readOutcome i.sslRead = some (.received bytes) ∧ Rejected (rxBuffer ++ bytes)

theorem closed_of_disconnect {s : ClientApp} (h : s.connection.Live) :
    s.disconnect.connection.fd = -1 ∧ s.disconnect.running = s.running := by
  rw [ClientApp.disconnect_live h]
  exact ⟨rfl, rfl⟩

theorem read_live (hlive : s.connection.Live) (hread : s.read i = .ok s') :
    (ReadLoses i s.connection.rxBuffer → s'.connection.fd = -1 ∧ s'.running = s.running) ∧
      (¬ReadLoses i s.connection.rxBuffer → s'.running = true → s'.connection.Live) := by
  unfold ClientApp.read at hread
  rw [handleRead_live hlive] at hread
  cases hcall : readLoop i.sslRead s.connection with
  | none => simp [hcall] at hread
  | some outcome =>
      obtain ⟨result, c, unused⟩ := outcome
      simp only [hcall, Except.ok.injEq] at hread
      subst hread
      rcases readLoop_cases hcall with ⟨bytes, houtcome, rfl, rfl⟩ |
        ⟨error, houtcome, ⟨hfatal, rfl, rfl⟩ | ⟨hfine, ⟨waiting, rfl⟩, hresult⟩⟩
      · -- what arrives is accepted as far as it goes, or not
        have hresponded := ClientApp.processReceivedData_responded
          (s := s.withConnection
            { s.connection with
              rxBuffer := s.connection.rxBuffer ++ bytes, readWaitingForWrite := false })
          ⟨hlive.fd, hlive.ssl, hlive.status⟩ i.now
        have hloses : ReadLoses i s.connection.rxBuffer ↔
            (packets.drain (s.connection.rxBuffer ++ bytes)).buffer = none := by
          rw [← rejected_iff, ReadLoses, houtcome]
          simp
        rw [hloses]
        refine ⟨fun hnone => ⟨(hresponded.stopped hnone).fd, hresponded.running⟩, ?_⟩
        intro hsome _
        obtain ⟨rest, hrest⟩ := Option.ne_none_iff_exists'.mp hsome
        obtain ⟨-, _, _, -, hconnection⟩ := hresponded.goesOn rest hrest
        exact (congrArg ClientConnection.Live hconnection).mpr
          ⟨hlive.fd, hlive.ssl, hlive.status⟩
      · have hlost : ReadLoses i s.connection.rxBuffer := .inl ⟨error, houtcome, hfatal⟩
        exact ⟨fun _ => closed_of_disconnect
          (s := (s.withConnection s.connection).printMessage _ .error) hlive,
          fun hkept => absurd hlost hkept⟩
      · have hkept : ¬ReadLoses i s.connection.rxBuffer := by
          simp [ReadLoses, houtcome, hfine]
        refine ⟨fun hlost => absurd hlost hkept, fun _ hrunning => ?_⟩
        unfold ClientApp.handleReadResult at hrunning ⊢
        rcases hresult with rfl | rfl | rfl
        · exact ⟨hlive.fd, hlive.ssl, hlive.status⟩
        · rw [ClientApp.enableWriteEvent_connection]
          exact ⟨hlive.fd, hlive.ssl, hlive.status⟩
        · simp at hrunning

theorem flush_live (hlive : s.connection.Live) (hflush : s.flush i = .ok s')
    (hrunning : s'.running = true) : s'.connection.Live := by
  unfold ClientApp.flush at hflush
  cases hcall : flushWrite s.connection i.sslWrite with
  | none => simp [hcall] at hflush
  | some outcome =>
      obtain ⟨result, c, calls⟩ := outcome
      simp only [hcall, Except.ok.injEq] at hflush
      subst hflush
      have hopen : c.Live := by
        obtain ⟨out, rfl⟩ := flushWrite_outgoing hcall
        exact ⟨hlive.fd, hlive.ssl, hlive.status⟩
      unfold ClientApp.handleFlushResult at hrunning ⊢
      cases result with
      | queueEmpty =>
          dsimp only at hrunning ⊢
          rw [if_neg (show ¬((s.withConnection c).log (calls.map .sslWrite)).connection.status =
            .closing from hopen.status)]
          split_ifs
          · rwa [ClientApp.disableWriteEvent_connection]
          · exact hopen
      | readWait =>
          rw [ClientApp.disableWriteEvent_connection]
          exact ⟨hopen.fd, hopen.ssl, hopen.status⟩
      | writeWait => rwa [ClientApp.enableWriteEvent_connection]
      | fatalError => simp at hrunning

theorem queueAndEnable_live (hlive : s.connection.Live) (packet : Bytes) :
    (s.queueAndEnable i packet).connection.Live := by
  rw [ClientApp.queueAndEnable_connection]
  exact ⟨hlive.fd, hlive.ssl, hlive.status⟩

theorem step_lost (hlive : s.connection.Live) (hreads : s.connection.Reads i.event)
    (hlost : ReadLoses i s.connection.rxBuffer) (hstep : ClientApp.step i s = .ok s') :
    s'.connection.fd = -1 ∧ s'.running = s.running := by
  rw [ClientApp.step_reads hreads] at hstep
  exact (read_live (s := s.withConnection { s.connection with readWaitingForWrite := false })
    ⟨hlive.fd, hlive.ssl, hlive.status⟩ hstep).1 hlost

/-- A client that goes on has a live connection, unless it has lost it in a read. -/
theorem step_live (hlive : s.connection.Live)
    (hkept : ¬(s.connection.Reads i.event ∧ ReadLoses i s.connection.rxBuffer))
    (hstep : ClientApp.step i s = .ok s') (hrunning : s'.running = true) :
    s'.connection.Live := by
  cases ClientApp.dispatched_of_step hstep with
  | timer _ hticked =>
      rw [hticked, ClientApp.handleTimerEvent] at hrunning ⊢
      split_ifs at hrunning ⊢
      · simp at hrunning
      · exact queueAndEnable_live hlive _
  | console _ hwritten =>
      obtain ⟨t, ht, hconnection, -⟩ := ClientApp.consoleWriteEvent_cases hwritten
      rw [hconnection]
      rcases ht with rfl | ⟨packet, rfl⟩
      · exact hlive
      · exact queueAndEnable_live hlive packet
  | waits _ hsame => exact hsame ▸ hlive
  | flushes _ _ hflush =>
      exact flush_live
        (s := s.withConnection { s.connection with writeWaitingForRead := false })
        ⟨hlive.fd, hlive.ssl, hlive.status⟩ hflush hrunning
  | reads hreads hread =>
      exact (read_live
        (s := s.withConnection { s.connection with readWaitingForWrite := false })
        ⟨hlive.fd, hlive.ssl, hlive.status⟩ hread).2 (fun hlost => hkept ⟨hreads, hlost⟩)
          hrunning

theorem losesUnnoticed_iff : LosesUnnoticed i s ↔ s.running = true ∧ s.connection.Live ∧
    s.connection.Reads i.event ∧ ReadLoses i s.connection.rxBuffer := by
  constructor
  · rintro (⟨hrunning, hlive, hreads, houtcome, hfatal⟩ |
      ⟨hrunning, hlive, hreads, houtcome, hrejected⟩)
    · exact ⟨hrunning, hlive, hreads, .inl ⟨_, houtcome, hfatal⟩⟩
    · exact ⟨hrunning, hlive, hreads, .inr ⟨_, houtcome, hrejected⟩⟩
  · rintro ⟨hrunning, hlive, hreads, ⟨_, houtcome, hfatal⟩ | ⟨_, houtcome, hrejected⟩⟩
    · exact .failed hrunning hlive hreads houtcome hfatal
    · exact .rejected hrunning hlive hreads houtcome hrejected

theorem running_of_step (hstep : ClientApp.step i s = .ok s') (hrunning : s'.running = true) :
    s.running = true := by
  rcases step_shown hstep with hmute | ⟨line, -, hsame, -⟩
  · exact hmute.running hrunning
  · exact hsame ▸ hrunning

def RunsLive (s : ClientApp) : Prop := s.running = true → s.connection.Live

theorem RunsLive.step (h : RunsLive s) (hkept : ¬LosesUnnoticed i s)
    (hstep : ClientApp.step i s = .ok s') : RunsLive s' := by
  intro hrunning
  have hbefore := running_of_step hstep hrunning
  rw [losesUnnoticed_iff] at hkept
  exact step_live (h hbefore) (fun hlost => hkept ⟨hbefore, h hbefore, hlost⟩) hstep hrunning

theorem attentive_of_runsLive (h : RunsLive s) (h' : RunsLive s')
    (hstep : ClientApp.step i s = .ok s') : Attentive ⟨s, i, s'⟩ := by
  refine ⟨fun _ hclosed => ?_, fun shown message hrunning hshown hmem => ?_⟩
  · by_contra hrunning
    have hopen := (h' (by simpa using hrunning)).fd
    dsimp only at hclosed
    rw [hclosed] at hopen
    simp at hopen
  · refine ⟨h hrunning, ?_⟩
    dsimp only at hshown ⊢
    rcases step_shown hstep with hmute | ⟨line, hown, -, -, hqueue⟩
    · rw [hmute.shown, List.self_eq_append_right] at hshown
      simp [hshown] at hmem
    · rw [hown, List.append_cancel_left_eq] at hshown
      rw [← hshown, List.mem_singleton] at hmem
      rw [hqueue, hmem]

end

/-- In every run of the chat, every step that drops the connection ends the loop and every
message that a running client shows as its own is queued on a live connection, if and only
if no read of the running client fails and none brings bytes that are not accepted. -/
theorem losses_end_loop {s₀ s : ClientApp} {history : List (Transition ClientApp Input)}
    (hstart : EntersChat s₀) (hrun : Run ClientApp.step s₀ history s) :
    (∀ t ∈ history, Attentive t) ↔ ∀ t ∈ history, ¬LosesUnnoticed t.input t.pre := by
  constructor
  · intro h t ht hloses
    obtain ⟨hrunning, hlive, hreads, hlost⟩ := losesUnnoticed_iff.mp hloses
    obtain ⟨hstep, -⟩ := hrun.transition ht
    obtain ⟨hclosed, hsame⟩ := step_lost hlive hreads hlost hstep
    have hstopped := (h t ht).stops hlive.fd hclosed
    rw [hsame, hrunning] at hstopped
    simp at hstopped
  · intro h
    have hinvariant : RunsLive s ∧ ∀ t ∈ history, Attentive t := by
      refine hrun.invariant_of (fun t => ¬LosesUnnoticed t.input t.pre)
        (fun history s => RunsLive s ∧ ∀ t ∈ history, Attentive t)
        ⟨fun _ => hstart.live, by simp⟩ ?_ h
      rintro history s s' i - ⟨hlive, hall⟩ hstep hkept
      have hlive' := hlive.step hkept hstep
      refine ⟨hlive', fun t ht => ?_⟩
      rcases List.mem_append.mp ht with hold | hnew
      · exact hall t hold
      · rw [List.mem_singleton] at hnew
        exact hnew ▸ attentive_of_runsLive hlive hlive' hstep
    exact hinvariant.2

theorem losses_end_loop_line : ∃ history s, Run ClientApp.step chattingClient history s ∧
    s.connection.txQueue = [createPacketStream .message (literal "hi")] ∧
      ∀ t ∈ history, Attentive t := by
  obtain ⟨history, s, hrun, hinputs, h⟩ := Run.exists_of_execute_inputs ClientApp.step
    [⟨.console [104, 105, 10], 0, [], [], true⟩] chattingClient
    (fun _ s => s.connection.txQueue = [createPacketStream .message (literal "hi")])
    (by decide +kernel)
  refine ⟨history, s, hrun, of_decide_eq_true h,
    (losses_end_loop chattingClient_entersChat hrun).mpr fun t ht hloses => ?_⟩
  have hmem : t.input ∈ history.map (·.input) := List.mem_map_of_mem ht
  rw [hinputs, List.mem_singleton] at hmem
  obtain ⟨-, -, ⟨-, ⟨hevent, -⟩ | ⟨hevent, -⟩⟩, -⟩ := losesUnnoticed_iff.mp hloses
  · simp [hmem] at hevent
  · simp [hmem] at hevent

/-- A read fails, and the client stays in its loop without a connection. -/
theorem loss_unnoticed : ¬∀ s₀ history s, EntersChat s₀ →
    Run ClientApp.step s₀ history s → ∀ t ∈ history, Attentive t := by
  intro h
  obtain ⟨history, s, hrun, hlost⟩ := Run.exists_of_execute ClientApp.step
    [⟨.read, 0, [.failed .ssl], [], true⟩] chattingClient
    (fun history _ => history.any fun t => 0 ≤ t.pre.connection.fd ∧
      t.post.connection.fd = -1 ∧ t.post.running = true)
    (by decide +kernel)
  simp only [List.any_eq_true, decide_eq_true_eq] at hlost
  obtain ⟨t, ht, hopen, hclosed, hrunning⟩ := hlost
  have hstopped := (h _ history s chattingClient_entersChat hrun t ht).stops hopen hclosed
  rw [hrunning] at hstopped
  simp at hstopped

end TChat.Client
