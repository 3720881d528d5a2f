import TChat.Client.App
import TChat.Console
import TChat.Server.Sessions
/-!
# Undefined behaviour

A null session, a connection that is gone and an empty string are what an event of the two
programs can run into.  Which events do, in any run.
-/

namespace TChat

open TChat.Common TChat.Lib

/-- The first line that a call finishes and does not skip consists of blanks. -/
def EntersBlank {ρ : Type} (editor : LineEditor Int Bytes ρ) (keys : List Int)
    (inputBuffer : Bytes) : Prop :=
  ∃ line, (editor.linesAfter (keys.takeWhile (!editor.pause ·)) inputBuffer).find?
      (!editor.skip ·) = some line ∧
    ∀ byte ∈ line, Server.isSpace byte = true

theorem call_eq_none_iff_entersBlank {ρ : Type} {editor : LineEditor Int Bytes ρ}
    {lineResult : Bytes → Option ρ} (hfinish : ∀ line, editor.finish line = lineResult line)
    (hnone : ∀ line, lineResult line = none ↔ words line = []) (keys : List Int)
    (inputBuffer : Bytes) :
    editor.call keys inputBuffer = none ↔ EntersBlank editor keys inputBuffer := by
  rw [LineEditor.call_eq_none_iff, EntersBlank]
  apply exists_congr
  intro line
  rw [hfinish, hnone, words_eq_nil_iff_blank]

namespace Server

theorem readConsoleInput_error_iff {keys : List Int} {inputBuffer : Bytes} :
    readConsoleInput keys inputBuffer = .error .emptyString ↔
      EntersBlank lineEditor keys inputBuffer := by
  rw [← call_eq_none_iff_entersBlank classifyLine_eq fun _ => lineResult_eq_none_iff]
  have heq := readConsoleInput_eq keys inputBuffer
  cases hread : readConsoleInput keys inputBuffer with
  | error fault =>
      rw [hread] at heq
      rw [ServerApp.readConsoleInput_error hread]
      exact iff_of_true rfl (Option.map_eq_none_iff.mp heq.symm)
  | ok pair =>
      rw [hread] at heq
      apply iff_of_false nofun
      intro hnone
      rw [hnone] at heq
      cases heq

/-- A connection that is authenticated and has no session sends something that the server
answers through the session. -/
def SpeaksWithoutSession (i : Input) (s : ServerApp) : Prop :=
  ∃ p c stream, s.deref p = some c ∧ Streams i c stream ∧
    (stream.result = .invalidProtocolError ∨ stream.result = .disconnectClient ∨
      stream.result = .printMessage) ∧
    ∀ u x, s.sessions.find? u = some x → x.connection ≠ some p

def EntersBlankLine (i : Input) (s : ServerApp) : Prop :=
  ∃ keys, i.event = .console keys ∧ EntersBlank lineEditor keys s.consoleInputBuffer

section

variable {now : Time} {history : List (Transition ServerApp Input)} {i : Input}
  {s : ServerApp}

theorem step_speaksWithoutSession (hwf : WellFormed s) (hpossible : i.Possible s)
    (h : SpeaksWithoutSession i s) : step i s = .error .nullSession := by
  obtain ⟨p, c, stream, hp, hstream, hresult, hnone⟩ := h
  rw [step_streams hwf hp hstream hpossible, findSession_none.mpr hnone]
  rcases hresult with hresult | hresult | hresult <;> rw [hresult] <;> rfl

theorem step_entersBlankLine (hpossible : i.Possible s) (h : EntersBlankLine i s) :
    step i s = .error .emptyString := by
  obtain ⟨keys, hevent, hblank⟩ := h
  have hread : readConsoleInput keys (s.beginEvent i.now).consoleInputBuffer =
      .error .emptyString := readConsoleInput_error_iff.mpr hblank
  rw [step, if_pos hpossible, ServerApp.dispatch, hevent]
  simp only [ServerApp.consoleWriteEvent, hread, bind, Except.bind]

theorem exists_consoleWriteEvent (hwf : WellFormed s) {keys : List Int}
    {result : ConsoleInputResult} {buffer : Bytes}
    (hread : readConsoleInput keys s.consoleInputBuffer = .ok (result, buffer)) :
    ∃ s', (s.beginEvent i.now).consoleWriteEvent i keys = .ok s' := by
  obtain ⟨status, line⟩ := result
  unfold ServerApp.consoleWriteEvent
  simp only [ServerApp.beginEvent_consoleInputBuffer, hread, bind, Except.bind]
  cases status with
  | kickClient =>
      rw [ServerApp.handleConsoleInputResult]
      cases hsession : s.sessions.find? line with
      | none =>
          rw [ServerApp.kick_unknown (s := (s.beginEvent i.now).setConsoleInputBuffer buffer)
            hsession]
          exact ⟨_, rfl⟩
      | some session =>
          cases hconnection : session.connection with
          | none =>
              rw [ServerApp.kick_detached
                (s := (s.beginEvent i.now).setConsoleInputBuffer buffer) hsession hconnection]
              exact ⟨_, rfl⟩
          | some p =>
              obtain ⟨c, hp, -⟩ := (hwf.sessions hsession).holds p hconnection
              rw [ServerApp.kick_attached
                (s := (s.beginEvent i.now).setConsoleInputBuffer buffer) hsession hconnection hp
                (hwf.deref_ok hp).fd_eq]
              exact ⟨_, rfl⟩
  | _ => exact ⟨_, rfl⟩

theorem entersBlankLine_of_step (hwf : WellFormed s) {keys : List Int}
    (hevent : i.event = .console keys) (h : step i s = .error .emptyString) :
    EntersBlankLine i s := by
  refine ⟨keys, hevent, readConsoleInput_error_iff.mp ?_⟩
  cases hread : readConsoleInput keys s.consoleInputBuffer with
  | error fault => rw [ServerApp.readConsoleInput_error hread]
  | ok pair =>
      obtain ⟨s', hs'⟩ := @exists_consoleWriteEvent i s hwf keys pair.1 pair.2 hread
      unfold step at h
      split_ifs at h with hpossible
      · rw [ServerApp.dispatch, hevent] at h
        have hclash : (.ok s' : Except Fault ServerApp) = .error .emptyString := hs'.symm.trans h
        cases hclash
      · simp at h

end

end Server

section

open TChat.Server

variable {now : Server.Time} {history : List (Transition ServerApp Server.Input)}
  {i : Server.Input} {s : ServerApp}

/-- What an event with undefined behaviour has run into. -/
theorem undefined_cases (hrun : ServerRun now history s) {fault : Server.Fault}
    (hfault : fault ≠ .impossible) (hstep : Server.step i s = .error fault) : i.Possible s ∧
      (fault = .nullSession ∧ SpeaksWithoutSession i s ∨
        fault = .emptyString ∧ EntersBlankLine i s) := by
  have hwf := wellFormed_of_run hrun
  have hpossible : i.Possible s := by
    unfold Server.step at hstep
    split_ifs at hstep with hpossible
    · exact hpossible
    · exact absurd (Except.error.inj hstep).symm hfault
  refine ⟨hpossible, ?_⟩
  have houtcome := outcome_step (i := i) hwf
  rw [hstep] at houtcome
  cases houtcome with
  | impossible => exact absurd rfl hfault
  | emptyString hevent => exact .inr ⟨rfl, entersBlankLine_of_step hwf hevent hstep⟩
  | @nullSession p c stream hp hstream hresult hnone =>
      exact .inl ⟨rfl, p, c, stream, hp, hstream, hresult, findSession_none.mp hnone⟩

/-- In every run, an event has undefined behaviour exactly when a client without a session
says something that is answered through it, or when the operator enters a line of blanks.
No pointer to a connection that is gone is ever read. -/
theorem server_undefined_iff (hrun : ServerRun now history s) {fault : Server.Fault}
    (hfault : fault ≠ .impossible) : Server.step i s = .error fault ↔ i.Possible s ∧
      (fault = .nullSession ∧ SpeaksWithoutSession i s ∨
        fault = .emptyString ∧ EntersBlankLine i s) := by
  constructor
  · exact undefined_cases hrun hfault
  · rintro ⟨hpossible, ⟨rfl, hspeaks⟩ | ⟨rfl, hblank⟩⟩
    · exact step_speaksWithoutSession (wellFormed_of_run hrun) hpossible hspeaks
    · exact step_entersBlankLine hpossible hblank

/-- `server_undefined_iff` where two clients have logged in under one name. -/
theorem server_undefined_iff_hello : ∃ history s, ServerRun 0 history s ∧
    SpeaksWithoutSession (receiving 5 (createPacketStream .message (literal "hello"))) s := by
  obtain ⟨history, s, hrun, hfault⟩ := Run.exists_of_execute Server.step loginTwice
    (initialState 0)
    (fun _ s =>
      match Server.step (receiving 5 (createPacketStream .message (literal "hello"))) s with
      | .error fault => fault = .nullSession
      | .ok _ => false)
    (by decide +kernel)
  have hstep : Server.step (receiving 5 (createPacketStream .message (literal "hello"))) s =
      .error .nullSession := by
    cases hstep : Server.step (receiving 5 (createPacketStream .message (literal "hello"))) s with
    | ok s' => simp [hstep] at hfault
    | error fault => simpa [hstep] using hfault
  have hfault' : Fault.nullSession ≠ .impossible := by decide
  obtain ⟨-, ⟨-, hspeaks⟩ | ⟨hempty, -⟩⟩ := (server_undefined_iff hrun hfault').mp hstep
  · exact ⟨history, s, hrun, hspeaks⟩
  · cases hempty

/-- In a run in which nobody logs in under the name of a client that is connected, only a line
of blanks has undefined behaviour. -/
theorem server_defined_iff (hrun : ServerRun now history s)
    (hlogins : ∀ t ∈ history, ¬LogsInOver t.input t.pre) {fault : Server.Fault}
    (hfault : fault ≠ .impossible) : Server.step i s = .error fault ↔
      i.Possible s ∧ fault = .emptyString ∧ EntersBlankLine i s := by
  constructor
  · intro hstep
    obtain ⟨hpossible, ⟨-, p, c, stream, hp, hstream, -, hnone⟩ | hblank⟩ :=
      undefined_cases hrun hfault hstep
    · have hrepresented := represented_iff.mp (represented_of_run hrun hlogins)
      obtain ⟨u, x, hx, hxp⟩ := hrepresented p c hp hstream.authenticated
      exact absurd hxp (hnone u x hx)
    · exact ⟨hpossible, hblank⟩
  · rintro ⟨hpossible, rfl, hblank⟩
    exact step_entersBlankLine hpossible hblank

theorem server_defined_iff_blank : ∃ history s, ServerRun 0 history s ∧ history ≠ [] ∧
    Server.step { Server.Input.sample with event := .console [32, 10] } s =
      .error .emptyString := by
  obtain ⟨history, s, hrun, h⟩ := Run.exists_of_execute Server.step [accepting 5]
    (initialState 0)
    (fun history s => history ≠ [] ∧ s.clock = 0 ∧ s.consoleInputBuffer = [] ∧
      ∀ t ∈ history, t.pre.sessions.entries = [])
    (by decide +kernel)
  simp only [decide_eq_true_eq] at h
  obtain ⟨hne, hclock, hbuffer, hbefore⟩ := h
  have hlogins : ∀ t ∈ history, ¬LogsInOver t.input t.pre :=
    fun t ht => not_logsInOver_of_no_session (hbefore t ht)
  have hpossible : ({ Server.Input.sample with event := .console [32, 10] } :
      Server.Input).Possible s := ⟨hclock.le, by simp [Server.Event.accepted?]⟩
  have hblank : EntersBlankLine { Server.Input.sample with event := .console [32, 10] } s := by
    refine ⟨[32, 10], rfl, [32], ?_, by simp [isSpace]⟩
    rw [hbuffer]
    rfl
  exact ⟨history, s, hrun, hne,
    (server_defined_iff hrun hlogins (by decide)).mpr ⟨hpossible, rfl, hblank⟩⟩

end


section

open TChat.Client

theorem read_ne_emptyString (i : Client.Input) (s : ClientApp) :
    s.read i ≠ .error .emptyString := by
  unfold ClientApp.read
  split <;> simp

theorem flush_ne_emptyString (i : Client.Input) (s : ClientApp) :
    s.flush i ≠ .error .emptyString := by
  unfold ClientApp.flush
  split <;> simp

/-- An event of the client has undefined behaviour exactly when the user enters a line of
blanks. -/
theorem client_undefined_iff (i : Client.Input) (s : ClientApp) :
    ClientApp.step i s = .error .emptyString ↔ ∃ keys, i.event = .console keys ∧
      EntersBlank Client.lineEditor keys s.consoleInputBuffer := by
  have hread (keys : List Int) : Client.readConsoleInput keys s.consoleInputBuffer = none ↔
      EntersBlank Client.lineEditor keys s.consoleInputBuffer := by
    rw [← call_eq_none_iff_entersBlank Client.classifyLine_eq fun _ =>
      Client.lineResult_eq_none_iff, Client.readConsoleInput_eq, Option.map_eq_none_iff]
  constructor
  · intro hstep
    unfold ClientApp.step at hstep
    cases hevent : i.event with
    | timer => simp [hevent] at hstep
    | console keys =>
        rw [hevent] at hstep
        refine ⟨keys, rfl, (hread keys).mp ?_⟩
        unfold ClientApp.consoleWriteEvent at hstep
        cases hconsole : Client.readConsoleInput keys s.consoleInputBuffer with
        | none => rfl
        | some pair => simp [hconsole] at hstep
    | read =>
        rw [hevent] at hstep
        dsimp only at hstep
        unfold ClientApp.readEvent at hstep
        split_ifs at hstep
        · exact absurd hstep (flush_ne_emptyString i _)
        · exact absurd hstep (read_ne_emptyString i _)
    | write =>
        rw [hevent] at hstep
        dsimp only at hstep
        unfold ClientApp.writeEvent at hstep
        split_ifs at hstep
        · exact absurd hstep (read_ne_emptyString i _)
        · exact absurd hstep (flush_ne_emptyString i _)
  · rintro ⟨keys, hevent, hblank⟩
    rw [ClientApp.step, hevent]
    simp only [ClientApp.consoleWriteEvent, (hread keys).mpr hblank]

end

end TChat
