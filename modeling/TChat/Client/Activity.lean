import TChat.Client.Losses
import TChat.Lib.Watchdog
import TChat.Server.Parsing
/-!
# What keeps the server trusted

`handle_timer_event` gives the server up when `last_server_activity` is ten seconds ago.
The time is set when the chat begins and for each pong, and not by the messages and the
replies of the server.
-/

namespace TChat.Client

open TChat.Common TChat.Lib
open TChat.Server (readOutcome Begins)

/-- Behind packets that `process_data_stream` accepts comes a pong. -/
inductive Pongs : Bytes → Prop
  | front {buffer : Bytes} :
      (processDataStream buffer).1.status = .receivedPong → Pongs buffer
  | later {buffer : Bytes} : (processDataStream buffer).1.waits = false →
      (processDataStream buffer).1.status ≠ .invalidProtocolError →
      Pongs (processDataStream buffer).2 → Pongs buffer

/-- `handle_read` is called on a live connection, and `bytes` arrive. -/
structure Receives (i : Input) (s : ClientApp) (bytes : Bytes) : Prop where
  reads : s.connection.Reads i.event
  live : s.connection.Live
  outcome : readOutcome i.sslRead = some (.received bytes)

/-- The event handles a complete packet of the server, of any type. -/
def HandlesPacket (i : Input) (s : ClientApp) : Prop :=
  ∃ bytes, Receives i s bytes ∧ Begins (s.connection.rxBuffer ++ bytes)

/-- The event sets `last_server_activity`: one of the packets it handles is a pong. -/
def HearsPong (i : Input) (s : ClientApp) : Prop :=
  ∃ bytes, Receives i s bytes ∧ Pongs (s.connection.rxBuffer ++ bytes)

def ReportsTimeout (i : Input) (s : ClientApp) : Prop :=
  i.event = .timer ∧ ∃ s' more, ClientApp.step i s = .ok s' ∧
    s'.actions = s.actions ++ .print (literal "Server heartbeat timeout.") .error [] :: more

def heartbeat : Watchdog ClientApp Input Int where
  last := fun s => some s.connection.lastServerActivity
  time := Input.now
  noted := HearsPong
  active := HandlesPacket
  checks := fun i _ => i.event = .timer
  givesUp := ReportsTimeout
  limit := heartbeatTimeout

/-! ## Events that leave the time alone -/

section

variable {i : Input} {s s' : ClientApp} {buffer : Bytes}

@[simp] theorem disconnect_activity (s : ClientApp) :
    s.disconnect.connection.lastServerActivity = s.connection.lastServerActivity := by
  unfold ClientApp.disconnect
  dsimp only
  split_ifs <;> rfl

theorem queueWrite_activity (c : ClientConnection) (packet : Bytes) :
    (queueWrite c packet).lastServerActivity = c.lastServerActivity :=
  rfl

theorem flush_activity (h : s.flush i = .ok s') :
    s'.connection.lastServerActivity = s.connection.lastServerActivity := by
  unfold ClientApp.flush at h
  cases hcall : flushWrite s.connection i.sslWrite with
  | none => simp [hcall] at h
  | some outcome =>
      obtain ⟨result, c, calls⟩ := outcome
      have hkept : c.lastServerActivity = s.connection.lastServerActivity := by
        obtain ⟨out, rfl⟩ := flushWrite_outgoing hcall
        rfl
      simp only [hcall, Except.ok.injEq] at h
      subst h
      unfold ClientApp.handleFlushResult
      cases result with
      | queueEmpty =>
          dsimp only
          split_ifs <;> simp [hkept]
      | _ => simp [hkept]

/-! ## Pongs -/

theorem pongs_iff : Pongs buffer ↔ (processDataStream buffer).1.status = .receivedPong ∨
    (processDataStream buffer).1.waits = false ∧
      (processDataStream buffer).1.status ≠ .invalidProtocolError ∧
      Pongs (processDataStream buffer).2 := by
  constructor
  · intro h
    cases h with
    | front hpong => exact .inl hpong
    | later hwaits hvalid hrest => exact .inr ⟨hwaits, hvalid, hrest⟩
  · rintro (hpong | ⟨hwaits, hvalid, hrest⟩)
    · exact .front hpong
    · exact .later hwaits hvalid hrest

/-- The loop of `process_received_data` sets the time exactly for the pongs it meets. -/
theorem processReceivedLoop_activity (fuel : Nat) (now : Int)
    (h : ClientApp.processReceivedLoop now fuel s = some s') :
    (Pongs s.connection.rxBuffer → s'.connection.lastServerActivity = now) ∧
      (¬Pongs s.connection.rxBuffer →
        s'.connection.lastServerActivity = s.connection.lastServerActivity) := by
  induction fuel generalizing s with
  | zero => simp [ClientApp.processReceivedLoop] at h
  | succ fuel ih =>
      obtain ⟨result, rest, hparse⟩ :
          ∃ result rest, processDataStream s.connection.rxBuffer = (result, rest) := ⟨_, _, rfl⟩
      rw [pongs_iff, hparse]
      by_cases hvalid : result.status = .invalidProtocolError
      · -- the client hangs up
        obtain ⟨t, ht⟩ := ClientApp.handleProcessStreamResult_hangsUp
          (s.withConnection { s.connection with rxBuffer := rest }) now hvalid
        rw [ClientApp.processReceivedLoop_step fuel hparse ht] at h
        obtain rfl : t = s' := by simpa using h
        have hkept : t.connection.lastServerActivity = s.connection.lastServerActivity := by
          have hsnd := congrArg (fun out => out.2.connection.lastServerActivity) ht
          simpa [ClientApp.handleProcessStreamResult, hvalid] using hsnd.symm
        simp [hvalid, hkept]
      · have ht := ClientApp.handleProcessStreamResult_valid
          (s.withConnection { s.connection with rxBuffer := rest }) now hvalid
        rw [ClientApp.processReceivedLoop_step fuel hparse ht] at h
        by_cases hwaits : result.waits
        · have hnone : result.status ≠ .receivedPong := by
            intro hpong
            simp [ProcessStreamResult.waits, hpong] at hwaits
          simp only [Bool.not_true, Bool.false_eq_true, if_false, hwaits, if_true,
            Option.some.injEq] at h
          subst h
          simp [hnone, hwaits, ClientApp.lastActivity]
        · simp only [Bool.not_true, Bool.false_eq_true, if_false, hwaits] at h
          obtain ⟨hpongs, hothers⟩ := ih h
          constructor
          · intro hpong
            by_cases hrest : Pongs rest
            · exact hpongs hrest
            · have hfront := hpong.resolve_right fun hlater => hrest hlater.2.2
              rw [hothers hrest]
              exact if_pos hfront
          · intro hnone
            rw [not_or] at hnone
            rw [hothers fun hrest => hnone.2 ⟨by simpa using hwaits, hvalid, hrest⟩]
            exact if_neg hnone.1

theorem processReceivedData_activity (s : ClientApp) (now : Int) :
    (Pongs s.connection.rxBuffer →
        (s.processReceivedData now).connection.lastServerActivity = now) ∧
      (¬Pongs s.connection.rxBuffer →
        (s.processReceivedData now).connection.lastServerActivity =
          s.connection.lastServerActivity) := by
  obtain ⟨fuel, hreturns⟩ := ClientApp.processReceivedData_returns s now
  exact processReceivedLoop_activity fuel now hreturns

def ReadsPong (i : Input) (s : ClientApp) : Prop :=
  s.connection.Live ∧ ∃ bytes, readOutcome i.sslRead = some (.received bytes) ∧
    Pongs (s.connection.rxBuffer ++ bytes)

theorem hearsPong_iff : HearsPong i s ↔ s.connection.Reads i.event ∧ ReadsPong i s := by
  constructor
  · rintro ⟨bytes, ⟨hreads, hlive, houtcome⟩, hpongs⟩
    exact ⟨hreads, hlive, bytes, houtcome, hpongs⟩
  · rintro ⟨hreads, hlive, bytes, houtcome, hpongs⟩
    exact ⟨bytes, ⟨hreads, hlive, houtcome⟩, hpongs⟩

theorem read_activity (hread : s.read i = .ok s') :
    (ReadsPong i s → s'.connection.lastServerActivity = i.now) ∧
      (¬ReadsPong i s →
        s'.connection.lastServerActivity = s.connection.lastServerActivity) := by
  unfold ClientApp.read at hread
  by_cases hlive : s.connection.Live
  · rw [handleRead_live hlive] at hread
    cases hcall : readLoop i.sslRead s.connection with
    | none => simp [hcall] at hread
    | some outcome =>
        obtain ⟨result, c, unused⟩ := outcome
        simp only [hcall, Except.ok.injEq] at hread
        subst hread
        rcases readLoop_cases hcall with ⟨bytes, houtcome, rfl, rfl⟩ |
          ⟨error, houtcome, ⟨-, rfl, rfl⟩ | ⟨-, ⟨waiting, rfl⟩, hresult⟩⟩
        · have hpongs : ReadsPong i s ↔ Pongs (s.connection.rxBuffer ++ bytes) := by
            simp [ReadsPong, hlive, houtcome]
          rw [hpongs]
          exact processReceivedData_activity (s.withConnection
            { s.connection with
              rxBuffer := s.connection.rxBuffer ++ bytes, readWaitingForWrite := false }) i.now
        · have hnone : ¬ReadsPong i s := by simp [ReadsPong, houtcome]
          exact ⟨fun hpong => absurd hpong hnone, fun _ => by simp [ClientApp.handleReadResult]⟩
        · have hnone : ¬ReadsPong i s := by simp [ReadsPong, houtcome]
          refine ⟨fun hpong => absurd hpong hnone, fun _ => ?_⟩
          rcases hresult with rfl | rfl | rfl <;> simp [ClientApp.handleReadResult]
  · have hnone : ¬ReadsPong i s := fun hpong => hlive hpong.1
    refine ⟨fun hpong => absurd hpong hnone, fun _ => ?_⟩
    have hdead : handleRead s.connection i.sslRead = some (.fatalError, s.connection, i.sslRead) ∨
        handleRead s.connection i.sslRead = some (.ignored, s.connection, i.sslRead) := by
      unfold handleRead
      split_ifs with hfd hssl hstatus
      · exact .inl rfl
      · exact .inl rfl
      · exact .inr rfl
      · exact absurd ⟨not_lt.mp hfd, hssl, hstatus⟩ hlive
    rcases hdead with hdead | hdead <;> simp only [hdead, Except.ok.injEq] at hread <;> subst hread
    · simp [ClientApp.handleReadResult]
    · rfl

/-! ## What an event does to `last_server_activity` -/

theorem step_activity (hstep : ClientApp.step i s = .ok s') :
    (HearsPong i s → s'.connection.lastServerActivity = i.now) ∧
      (¬HearsPong i s →
        s'.connection.lastServerActivity = s.connection.lastServerActivity) := by
  have hquiet (hreads : ¬s.connection.Reads i.event)
      (hkept : s'.connection.lastServerActivity = s.connection.lastServerActivity) :
      (HearsPong i s → s'.connection.lastServerActivity = i.now) ∧
        (¬HearsPong i s →
          s'.connection.lastServerActivity = s.connection.lastServerActivity) := by
    simp [hearsPong_iff, hreads, hkept]
  cases ClientApp.dispatched_of_step hstep with
  | timer hevent hticked =>
      refine hquiet (by simp [ClientConnection.Reads, hevent]) ?_
      rw [hticked, ClientApp.handleTimerEvent]
      split_ifs <;> simp [queueWrite_activity]
  | console hevent hwritten =>
      refine hquiet (by simp [ClientConnection.Reads, hevent]) ?_
      obtain ⟨t, ht, hconnection, -⟩ := ClientApp.consoleWriteEvent_cases hwritten
      rw [hconnection]
      rcases ht with rfl | ⟨packet, rfl⟩
      · rfl
      · rw [ClientApp.queueAndEnable_connection, queueWrite_activity]
  | waits hreads hsame => exact hquiet hreads (hsame ▸ rfl)
  | flushes hreads _ hflush =>
      exact hquiet hreads (flush_activity
        (s := s.withConnection { s.connection with writeWaitingForRead := false }) hflush)
  | reads hreads hread =>
      have hpongs : ReadsPong i (s.withConnection
          { s.connection with readWaitingForWrite := false }) ↔ ReadsPong i s :=
        and_congr_left' ⟨fun h => ⟨h.fd, h.ssl, h.status⟩, fun h => ⟨h.fd, h.ssl, h.status⟩⟩
      have hactivity := read_activity hread
      rw [hpongs] at hactivity
      simpa [hearsPong_iff, hreads] using hactivity

theorem reportsTimeout_iff : ReportsTimeout i s ↔
    i.event = .timer ∧ heartbeatTimeout ≤ i.now - s.connection.lastServerActivity := by
  refine and_congr_right fun hevent => ?_
  have hstep : ClientApp.step i s = .ok (s.handleTimerEvent i) := by
    rw [ClientApp.step, hevent]
  constructor
  · rintro ⟨s', more, hstep', hactions⟩
    rw [hstep, Except.ok.injEq] at hstep'
    subst hstep'
    by_contra hshort
    rw [ClientApp.handleTimerEvent, if_neg hshort] at hactions
    have hquiet : (s.queueAndEnable i (createPacketStream .ping [])).actions = s.actions := by
      unfold ClientApp.queueAndEnable ClientApp.enableWriteEvent
      dsimp only
      split_ifs <;> rfl
    rw [hquiet, List.self_eq_append_right] at hactions
    simp at hactions
  · intro hlong
    rw [ClientApp.handleTimerEvent, if_pos hlong] at hstep
    refine ⟨_, [.disconnect], hstep, ?_⟩
    unfold ClientApp.disconnect
    dsimp only
    split_ifs <;> simp [ClientApp.printMessage, ClientApp.log]

theorem heartbeat_lawful (hstep : ClientApp.step i s = .ok s') :
    heartbeat.Lawful ⟨s, i, s'⟩ where
  noted := fun h => congrArg some ((step_activity hstep).1 h)
  other := fun h => .inl (congrArg some ((step_activity hstep).2 h))
  givesUp := by
    rw [show heartbeat.givesUp i s ↔ _ from reportsTimeout_iff]
    simp [heartbeat]

/-- In every run the client reports no timeout of an active server if and only if the
server has sent a pong lately whenever the timer ticks and it has been active. -/
theorem heartbeats_exact {s₀ : ClientApp} {history : List (Transition ClientApp Input)}
    (hrun : Run ClientApp.step s₀ history s) (hsteady : heartbeat.Steady s₀ history) :
    heartbeat.Patient history ↔ heartbeat.Attended s₀ history := by
  refine Watchdog.patient_iff_attended hrun (fun t ht => ?_) hsteady
  exact heartbeat_lawful (hrun.transition ht).1

end

end TChat.Client
