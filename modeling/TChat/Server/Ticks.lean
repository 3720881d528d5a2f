import TChat.Server.Sessions
/-!
# A tick of the timer

`timer_event` goes over the connections twice and then over the sessions twice: overdue
connections are marked, those with nothing left to send are removed and their sessions
detached, sessions that have waited too long are marked, and marked sessions are removed.
A session detached in a tick has not waited yet, so the passes do not get in each other's
way.
-/

namespace TChat.Server

open TChat.Common TChat.Lib

/-- The connection is closing, or its user has not been heard of for ten seconds. -/
def Overdue (t : Time) (c : ClientConnection) : Prop :=
  c.status = .closing ∨ c.status = .authenticated ∧ seconds 10 ≤ t - c.lastSeen

instance (t : Time) (c : ClientConnection) : Decidable (Overdue t c) :=
  inferInstanceAs (Decidable (_ ∨ _))

/-- The session has expired, or has been without a connection for sixty seconds. -/
def Lapsed (t : Time) (x : ClientSession) : Prop :=
  x.state = .expired ∨
    x.state = .disconnected ∧ x.connection = none ∧ seconds 60 ≤ t - x.disconnectedAt

instance (t : Time) (x : ClientSession) : Decidable (Lapsed t x) :=
  inferInstanceAs (Decidable (_ ∨ _))

def Removed (p : ConnectionPtr) (s s' : ServerApp) : Prop :=
  (∃ c, s.deref p = some c) ∧ s'.deref p = none

/-- What a tick at the time `t` comes to. -/
structure Ticked (t : Time) (s s' : ServerApp) : Prop where
  awaiting : ∀ p c, s.deref p = some c → c.status = .awaitingAuth → s'.deref p = some c
  removed : ∀ p c, s.deref p = some c → Overdue t c → c.txQueue = [] → s'.deref p = none
  closing : ∀ p c, s.deref p = some c → Overdue t c → c.txQueue ≠ [] →
    s'.deref p = some { c with status := .closing }
  unchanged : ∀ p c, s.deref p = some c → ¬Overdue t c → s'.deref p = some c
  noneNew : ∀ p c', s'.deref p = some c' → ∃ c, s.deref p = some c
  deleted : ∀ u x, s.sessions.find? u = some x →
    (s'.sessions.find? u = none ↔ Lapsed t x)
  identity : ∀ u x x', s.sessions.find? u = some x → s'.sessions.find? u = some x' →
    x'.username = x.username ∧ x'.token = x.token
  changed : ∀ u x x', s.sessions.find? u = some x → s'.sessions.find? u = some x' → x' ≠ x →
    ∃ p, x.connection = some p ∧ Removed p s s'
  detached : ∀ u x x' p, s.sessions.find? u = some x → s'.sessions.find? u = some x' →
    x.connection = some p → Removed p s s' → x'.connection = none
  noneAdded : ∀ u x', s'.sessions.find? u = some x' → ∃ x, s.sessions.find? u = some x

section

variable {i : Input} {s : ServerApp} {p : ConnectionPtr} {c : ClientConnection}
  {x : ClientSession}

/-! ## Connections -/

theorem markIfTimedOut_overdue (h : Overdue i.now c) :
    ClientManager.markIfTimedOut i c = { c with status := .closing } := by
  unfold ClientManager.markIfTimedOut
  rcases h with hclosing | ⟨hstatus, hage⟩
  · rw [if_pos (.inl hclosing), ← hclosing]
  · rw [if_neg (by simp [hstatus]), if_pos hage]

theorem markIfTimedOut_in_time (h : ¬Overdue i.now c) :
    ClientManager.markIfTimedOut i c = c := by
  rcases markIfTimedOut_cases (i := i) c with hsame | ⟨hstatus, hage, -⟩
  · exact hsame
  · exact absurd (.inr ⟨hstatus, hage⟩) h

theorem timesOut_iff : TimesOut i c ↔ Overdue i.now c ∧ c.txQueue = [] := by
  by_cases h : Overdue i.now c
  · simp [TimesOut, markIfTimedOut_overdue h, h]
  · have hclosing : c.status ≠ .closing := fun hclosing => h (.inl hclosing)
    simp [TimesOut, markIfTimedOut_in_time h, h, hclosing]

theorem deref_ticked (hp : s.deref p = some c) :
    ((s.beginEvent i.now).tick i).deref p =
      if Overdue i.now c then
        if c.txQueue = [] then none else some { c with status := .closing }
      else some c := by
  rw [deref_tick, ServerApp.deref_beginEvent, hp, Option.bind_some]
  simp only [timesOut_iff]
  by_cases h : Overdue i.now c
  · by_cases hqueue : c.txQueue = [] <;> simp [h, hqueue, markIfTimedOut_overdue]
  · simp [h, markIfTimedOut_in_time]

theorem deref_of_ticked {c' : ClientConnection}
    (h : ((s.beginEvent i.now).tick i).deref p = some c') : ∃ c, s.deref p = some c := by
  rw [deref_tick, ServerApp.deref_beginEvent] at h
  obtain ⟨c, hc, -⟩ := Option.bind_eq_some_iff.mp h
  exact ⟨c, hc⟩

/-! ## Sessions -/

theorem losesConnection_iff (hp : x.connection = some p) :
    (s.beginEvent i.now).losesConnection i x = true ↔
      Removed p s ((s.beginEvent i.now).tick i) := by
  rw [ServerApp.losesConnection, hp, Option.bind_some, ServerApp.deref_beginEvent]
  cases hc : s.deref p with
  | none => simp [Removed, hc]
  | some c =>
      rw [Removed, deref_ticked hc, hc]
      by_cases h : Overdue i.now c
      · by_cases hqueue : c.txQueue = [] <;> simp [timesOut_iff, h, hqueue]
      · simp [timesOut_iff, h]

theorem not_losesConnection (hnone : x.connection = none) :
    (s.beginEvent i.now).losesConnection i x = false := by
  simp [ServerApp.losesConnection, hnone]

/-- A session that has just been detached is not expired in the same tick. -/
theorem markIfExpired_detached (hstate : x.state = .connected ∨ x.state = .reconnected) :
    ClientManager.markIfExpired i (ClientManager.detach i.now x) =
      ClientManager.detach i.now x := by
  rw [markIfExpired_eq, if_neg]
  rcases hstate with hstate | hstate
  · have hage : 0 < seconds 60 := by decide
    simp [ClientManager.detach, hstate, hage]
  · simp [ClientManager.detach, hstate]

theorem find?_ticked (hwf : WellFormed s) {u : Bytes} (hx : s.sessions.find? u = some x) :
    ((s.beginEvent i.now).tick i).sessions.find? u =
      if Lapsed i.now x then none
      else if (s.beginEvent i.now).losesConnection i x then some (ClientManager.detach i.now x)
      else some x := by
  have hok := hwf.sessions hx
  have hkeyed : (s.beginEvent i.now).SessionsKeyed := fun u x hx => (hwf.sessions hx).username_eq
  rw [find?_tick hkeyed hwf.injective, ServerApp.beginEvent_sessions, hx, Option.map_some]
  cases hloses : (s.beginEvent i.now).losesConnection i x with
  | true =>
      have hconnection : x.connection ≠ none := by
        intro hnone
        rw [not_losesConnection hnone] at hloses
        simp at hloses
      have hstate := hok.state hconnection
      have hkept : ¬Lapsed i.now x := by
        rcases hstate with hstate | hstate <;> simp [Lapsed, hstate]
      have hstays : (ClientManager.detach i.now x).state ≠ .expired := by
        rcases hstate with hstate | hstate <;> simp [ClientManager.detach, hstate]
      rw [if_pos rfl, markIfExpired_detached hstate, if_neg hkept]
      simp [Option.filter, hstays]
  | false =>
      have hexpired := hok.stored.2
      simp only [Bool.false_eq_true, if_false, markIfExpired_eq]
      by_cases hlapses : x.state = .disconnected ∧ x.connection = none ∧
          seconds 60 ≤ i.now - x.disconnectedAt
      · simp [Lapsed, hlapses, Option.filter]
      · simp [Lapsed, hlapses, hexpired, Option.filter]

theorem find?_of_ticked (hwf : WellFormed s) {u : Bytes} {x' : ClientSession}
    (h : ((s.beginEvent i.now).tick i).sessions.find? u = some x') :
    ∃ x, s.sessions.find? u = some x ∧ ¬Lapsed i.now x ∧
      x' = if (s.beginEvent i.now).losesConnection i x then ClientManager.detach i.now x
        else x := by
  cases hx : s.sessions.find? u with
  | none =>
      have hkeyed : (s.beginEvent i.now).SessionsKeyed :=
        fun u x hx => (hwf.sessions hx).username_eq
      rw [find?_tick hkeyed hwf.injective, ServerApp.beginEvent_sessions, hx] at h
      simp at h
  | some x =>
      rw [find?_ticked hwf hx] at h
      split_ifs at h with hlapsed hloses
      · exact ⟨x, rfl, hlapsed, by rw [if_pos hloses, Option.some.inj h]⟩
      · exact ⟨x, rfl, hlapsed, by rw [if_neg hloses, Option.some.inj h]⟩

theorem identity_detach (now : Time) (x : ClientSession) :
    (ClientManager.detach now x).username = x.username ∧
      (ClientManager.detach now x).token = x.token := by
  unfold ClientManager.detach
  split_ifs <;> exact ⟨rfl, rfl⟩

theorem ticked (hwf : WellFormed s) :
    Ticked i.now s ((s.beginEvent i.now).tick i) := by
  have hsession : ∀ {u x x'}, s.sessions.find? u = some x →
      ((s.beginEvent i.now).tick i).sessions.find? u = some x' →
      x' = if (s.beginEvent i.now).losesConnection i x then ClientManager.detach i.now x
        else x := by
    intro u x x' hx hx'
    obtain ⟨y, hy, -, heq⟩ := find?_of_ticked hwf hx'
    obtain rfl := Option.some.inj (hx.symm.trans hy)
    exact heq
  constructor
  · intro p c hp hawaiting
    have hinTime : ¬Overdue i.now c := by simp [Overdue, hawaiting]
    rw [deref_ticked hp, if_neg hinTime]
  · intro p c hp hoverdue hqueue
    rw [deref_ticked hp, if_pos hoverdue, if_pos hqueue]
  · intro p c hp hoverdue hqueue
    rw [deref_ticked hp, if_pos hoverdue, if_neg hqueue]
  · intro p c hp hinTime
    rw [deref_ticked hp, if_neg hinTime]
  · exact fun p c' => deref_of_ticked
  · intro u x hx
    rw [find?_ticked hwf hx]
    split_ifs with hlapsed <;> simp [hlapsed]
  · intro u x x' hx hx'
    rw [hsession hx hx']
    split_ifs
    · exact identity_detach _ _
    · exact ⟨rfl, rfl⟩
  · intro u x x' hx hx' hchanged
    rw [hsession hx hx'] at hchanged
    split_ifs at hchanged with hloses
    · cases hconnection : x.connection with
      | none => simp [not_losesConnection hconnection] at hloses
      | some p => exact ⟨p, rfl, (losesConnection_iff hconnection).mp hloses⟩
    · exact absurd rfl hchanged
  · intro u x x' p hx hx' hconnection hremoved
    rw [hsession hx hx', if_pos ((losesConnection_iff hconnection).mpr hremoved)]
    exact detach_connection _ _
  · intro u x' hx'
    obtain ⟨x, hx, -⟩ := find?_of_ticked hwf hx'
    exact ⟨x, hx⟩

end

/-- In every reachable state a tick removes the overdue connections that have nothing left
to send, closes the other overdue ones, deletes the sessions that have lapsed, detaches
those whose connection it removes, and changes nothing else. -/
theorem tick_exact {now : Time} {history : List (Transition ServerApp Input)} {s : ServerApp}
    (hrun : ServerRun now history s) {i : Input} (hevent : i.event = .timer)
    (hpossible : i.Possible s) : ∃ s', step i s = .ok s' ∧ Ticked i.now s s' := by
  have hwf := wellFormed_of_run hrun
  exact ⟨_, step_ticked hwf hpossible hevent, ticked hwf⟩

theorem tick_exact_late : ∃ history s s', ServerRun 0 history s ∧
    step { Input.sample with now := seconds 11 } s = .ok s' ∧ Ticked (seconds 11) s s' := by
  obtain ⟨history, s, -, hrun, hclock, -⟩ := exists_idle
  obtain ⟨s', hstep, hticked⟩ := tick_exact hrun
    (show ({ Input.sample with now := seconds 11 } : Input).event = .timer from rfl)
    ⟨by rw [hclock]; decide, nofun⟩
  exact ⟨history, s, s', hrun, hstep, hticked⟩

end TChat.Server
