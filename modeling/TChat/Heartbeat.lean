import TChat.Client.Activity
import TChat.Server.Activity
/-!
# Neither side gives up on an active peer

Both sides give the other up after ten seconds without a sign of life.  The server takes
pings for signs of life and the client takes pongs: what else the other says does not
count.
-/

namespace TChat

open TChat.Common TChat.Lib TChat.Server

/-- In every run of the server and every run of the client neither side gives up on a peer
that has been active in the last ten seconds, if and only if at each tick a peer that has
been active has also given a sign that counts: to the server its credentials, a ping or
what passes for one, and to the client a pong. -/
theorem active_peers_kept {now : Time} {history : List (Transition ServerApp Input)}
    {s : ServerApp} (hserver : ServerRun now history s) {s₀ s₁ : Client.ClientApp}
    {chat : List (Transition Client.ClientApp Client.Input)}
    (hclient : Run Client.ClientApp.step s₀ chat s₁) (hsteady : Client.heartbeat.Steady s₀ chat) :
    (∀ p, (heartbeat p).Patient history) ∧ Client.heartbeat.Patient chat ↔
      (∀ p, (heartbeat p).Attended (initialState now) history) ∧
        Client.heartbeat.Attended s₀ chat :=
  and_congr (forall_congr' fun p => heartbeats_exact hserver p)
    (Client.heartbeats_exact hclient hsteady)

def ticking (now : Time) : Input := { Input.sample with now := now }

theorem silent_user : ∃ history s, ServerRun 0 history s ∧
    (∃ t ∈ history, MarksTimedOut ⟨5, 0⟩ t.input t.pre) ∧
      ∀ p, (heartbeat p).Attended (initialState 0) history := by
  obtain ⟨history, s, hserver, hinputs, h⟩ := Run.exists_of_execute_inputs step
    [accepting 5, receiving 5 (loginPacket (literal "a") (literal "b")), ticking (seconds 11)]
    (initialState 0)
    (fun history _ => history.any fun t =>
      t.input.event = .timer ∧ t.input.now = seconds 11 ∧ lastSeen? ⟨5, 0⟩ t.pre = some 0)
    (by decide +kernel)
  simp only [List.any_eq_true, decide_eq_true_eq] at h
  obtain ⟨t, ht, hevent, hnow, hlast⟩ := h
  have hmarked : MarksTimedOut ⟨5, 0⟩ t.input t.pre :=
    marksTimedOut_iff.mpr ⟨hevent, 0, hlast, by rw [hnow]; decide⟩
  refine ⟨history, s, hserver, ⟨t, ht, hmarked⟩, fun p => ?_⟩
  apply Watchdog.attended_of_idle
  rintro before t after rfl hchecks earlier hearlier
  have htick : t.input.event = .timer := hchecks
  -- only the last of the three events is a tick
  rcases before with _ | ⟨first, _ | ⟨second, _ | ⟨third, before⟩⟩⟩
  · simp at hearlier
  · simp only [List.cons_append, List.nil_append, List.map_cons, List.cons.injEq] at hinputs
    rw [hinputs.2.1] at htick
    exact absurd htick nofun
  · simp only [List.cons_append, List.nil_append, List.map_cons, List.cons.injEq] at hinputs
    obtain ⟨hfirst, hsecond, hlast, -⟩ := hinputs
    have hbefore : earlier.input.now = 0 := by
      simp only [List.mem_cons, List.not_mem_nil, or_false] at hearlier
      rcases hearlier with rfl | rfl
      · rw [hfirst]
        rfl
      · rw [hsecond]
        rfl
    show seconds 10 ≤ t.input.now - earlier.input.now
    rw [hlast, hbefore]
    decide
  · simp at hinputs

theorem first_tick : ∃ chat s₁, Run Client.ClientApp.step Client.chattingClient chat s₁ ∧
    chat ≠ [] ∧ Client.heartbeat.Steady Client.chattingClient chat ∧
      Client.heartbeat.Attended Client.chattingClient chat := by
  obtain ⟨chat, s₁, hclient, hticks, -⟩ := Run.exists_of_execute_inputs Client.ClientApp.step
    [⟨.timer, seconds 1, [], [], true⟩] Client.chattingClient (fun _ _ => true)
    (by decide +kernel)
  obtain ⟨tick, rfl, htick⟩ := List.map_eq_singleton_iff.mp hticks
  refine ⟨[tick], s₁, hclient, by simp, ?_, ?_⟩
  · have htime : Client.heartbeat.time tick.input = seconds 1 := by
      rw [htick]
      rfl
    rw [Watchdog.Steady, List.map_singleton, htime]
    decide
  · apply Watchdog.attended_of_idle
    intro before t after hsplit _ earlier hearlier
    cases before with
    | nil => simp at hearlier
    | cons first before => simp at hsplit

/-- `active_peers_kept` for a user who is silent after the login, and a client at its first
tick. -/
theorem active_peers_kept_silent : ∃ history s chat s₁, ServerRun 0 history s ∧
    Run Client.ClientApp.step Client.chattingClient chat s₁ ∧
      (∃ t ∈ history, MarksTimedOut ⟨5, 0⟩ t.input t.pre) ∧ chat ≠ [] ∧
        (∀ p, (heartbeat p).Patient history) ∧ Client.heartbeat.Patient chat := by
  obtain ⟨history, s, hserver, hmarked, hserved⟩ := silent_user
  obtain ⟨chat, s₁, hclient, hticked, hsteady, hchatted⟩ := first_tick
  exact ⟨history, s, chat, s₁, hserver, hclient, hmarked, hticked,
    (active_peers_kept hserver hclient hsteady).mpr ⟨hserved, hchatted⟩⟩

/-- The server closes the connection of a user whose message is two seconds old. -/
theorem talking_user_closed : ¬∀ now history s s₀ chat s₁, ServerRun now history s →
    Client.EntersChat s₀ → Run Client.ClientApp.step s₀ chat s₁ →
    Client.heartbeat.Steady s₀ chat →
    (∀ p, (heartbeat p).Patient history) ∧ Client.heartbeat.Patient chat := by
  intro h
  obtain ⟨history, s, hserver, hs⟩ := Run.exists_of_execute step
    [accepting 5, receiving 5 (loginPacket (literal "a") (literal "b")),
      { receiving 5 (createPacketStream .message (literal "hi")) with now := seconds 8 }]
    (initialState 0)
    (fun history s => s.clock = seconds 8 ∧ lastSeen? ⟨5, 0⟩ s = some 0 ∧ history.any fun t =>
      t.input.now = seconds 8 ∧ t.input.event = .read 5 ∧
        readOutcome t.input.sslRead =
          some (.received (createPacketStream .message (literal "hi"))) ∧
        (t.pre.deref ⟨5, 0⟩).any fun c => c.fd = 5 ∧ c.status = .authenticated ∧
          c.rxBuffer = [] ∧ c.readWaitingForWrite = false ∧ c.writeWaitingForRead = false)
    (by decide +kernel)
  simp only [List.any_eq_true, Option.any_eq_true, decide_eq_true_eq] at hs
  obtain ⟨hclock, hlast, t, ht, hnow, hevent, houtcome, c, hp, hfd, hstatus, hbuffer, hreading,
    hwriting⟩ := hs
  have hidle : Idle c := ⟨hstatus, hbuffer, hreading, hwriting⟩
  have hreceives : Receives t.input c (createPacketStream .message (literal "hi")) :=
    hidle.receives (hfd ▸ hevent) houtcome (by decide) (by decide)
  have hhandled : HandlesPacket ⟨5, 0⟩ t.input t.pre := by
    refine ⟨c, _, hp, hreceives, ?_⟩
    rw [hbuffer, List.nil_append]
    exact ⟨by decide, by decide⟩
  have hpossible : (ticking (seconds 10)).Possible s := ⟨by rw [hclock]; decide, nofun⟩
  have hstep := step_ticked (wellFormed_of_run hserver) hpossible rfl
  have hsteady : Client.heartbeat.Steady Client.chattingClient [] := by
    simp [Watchdog.Steady]
  obtain ⟨hpatient, -⟩ := h 0 _ _ _ [] _ (hserver.next hstep)
    Client.chattingClient_entersChat .start hsteady
  have hlong : seconds 10 ≤ seconds 10 - 0 := by decide
  have hrecent : seconds 10 - seconds 8 < seconds 10 := by decide
  exact hpatient ⟨5, 0⟩ history _ [] rfl (marksTimedOut_iff.mpr ⟨rfl, 0, hlast, hlong⟩)
    ⟨seconds 8, ⟨t, ht, hhandled, hnow⟩, hrecent⟩

end TChat
