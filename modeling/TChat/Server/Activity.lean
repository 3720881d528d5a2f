import TChat.Lib.Watchdog
import TChat.Server.Authentication
import TChat.Server.Pings
import TChat.Server.Ticks
/-!
# What keeps a user connected

`mark_timed_out_connections` closes a connection when `last_seen` is ten seconds ago.
The time is set when the connection is authenticated and when a ping is answered, and not
by the messages of the user.
-/

namespace TChat.Server

open TChat.Common TChat.Lib

/-- The event handles a complete packet of the connection, of any type. -/
def HandlesPacket (p : ConnectionPtr) (i : Input) (s : ServerApp) : Prop :=
  ∃ c bytes, s.deref p = some c ∧ Receives i c bytes ∧ Begins (c.rxBuffer ++ bytes)

/-- The first packet that a user sends is a ping, or a command that passes for one. -/
def Pinged (buffer : Bytes) : Prop :=
  ∃ packet rest, Ahead (fun q => ¬Sendable (packetType? q)) packet rest buffer ∧
    (packetType? packet = some .ping ∨
      packetType? packet = some .command ∧ packetPayload packet ≠ literal "/quit")

/-- The event sets `last_seen`: the connection presents its credentials, or the ping of a
user with a session is answered. -/
inductive Refreshes (p : ConnectionPtr) (i : Input) (s : ServerApp) : Prop
  | authenticated {c : ClientConnection} :
      s.deref p = some c → Credentials i s c → Refreshes p i s
  | pinged {c : ClientConnection} {bytes : Bytes} :
      s.deref p = some c → c.status = .authenticated → Receives i c bytes →
      Pinged (c.rxBuffer ++ bytes) → ClientManager.findSesssionFromConnection p s ≠ none →
      Refreshes p i s

/-- `last_seen` of a connection that `mark_timed_out_connections` looks at. -/
def lastSeen? (p : ConnectionPtr) (s : ServerApp) : Option Time :=
  (s.deref p).bind fun c => if c.status = .authenticated then some c.lastSeen else none

def MarksTimedOut (p : ConnectionPtr) (i : Input) (s : ServerApp) : Prop :=
  i.event = .timer ∧ ∃ c, s.deref p = some c ∧ c.status ≠ .closing ∧
    (ClientManager.markIfTimedOut i c).status = .closing

def heartbeat (p : ConnectionPtr) : Watchdog ServerApp Input Time where
  last := lastSeen? p
  time := Input.now
  noted := Refreshes p
  active := HandlesPacket p
  checks := fun i _ => i.event = .timer
  givesUp := MarksTimedOut p
  limit := seconds 10

section

variable {i : Input} {s s' : ServerApp} {p : ConnectionPtr} {c : ClientConnection}
  {buffer : Bytes}

theorem pinged_iff : Pinged buffer ↔ (processClientStream buffer).result = .sendPong := by
  constructor
  · rintro ⟨packet, rest, ⟨before, hbefore, hpacket, rfl⟩, htype⟩
    rw [processClientStream_flatten hbefore, processClientStream_framed hpacket]
    rcases htype with htype | ⟨htype, hquit⟩
    · rw [htype]
    · simp only [htype, if_neg hquit]
  · exact ahead_of_pong

theorem lastSeen?_eq_some {time : Time} : lastSeen? p s = some time ↔
    ∃ c, s.deref p = some c ∧ c.status = .authenticated ∧ c.lastSeen = time := by
  rw [lastSeen?, Option.bind_eq_some_iff]
  refine exists_congr fun c => and_congr_right fun _ => ?_
  split_ifs with hstatus <;> simp [hstatus]

theorem lastSeen?_authenticated (hp : s.deref p = some c) (h : c.status = .authenticated) :
    lastSeen? p s = some c.lastSeen :=
  lastSeen?_eq_some.mpr ⟨c, hp, h, rfl⟩

theorem marksTimedOut_iff : MarksTimedOut p i s ↔
    i.event = .timer ∧ ∃ last, lastSeen? p s = some last ∧ seconds 10 ≤ i.now - last := by
  refine and_congr_right fun _ => ?_
  constructor
  · rintro ⟨c, hp, hopen, hmarked⟩
    rcases markIfTimedOut_cases (i := i) c with hsame | ⟨hstatus, hlong, -⟩
    · exact absurd (hsame ▸ hmarked) hopen
    · exact ⟨c.lastSeen, lastSeen?_authenticated hp hstatus, hlong⟩
  · rintro ⟨last, hlast, hlong⟩
    obtain ⟨c, hp, hstatus, rfl⟩ := lastSeen?_eq_some.mp hlast
    refine ⟨c, hp, by simp [hstatus], ?_⟩
    rw [markIfTimedOut_overdue (.inr ⟨hstatus, hlong⟩)]

/-! ## What an event does to `last_seen` -/

theorem lastSeen?_refreshes (hwf : WellFormed s) (h : Refreshes p i s)
    (hstep : step i s = .ok s') : lastSeen? p s' = some i.now := by
  have hpossible := possible_of_step hstep
  cases h with
  | @authenticated c hp hcredentials =>
      cases hcredentials with
      | password hshake hkind hverify =>
          obtain ⟨hp', -⟩ := lookups_of_login hwf hp hshake hkind hverify hpossible hstep
          exact lastSeen?_authenticated hp' rfl
      | @token request rest _ hshake hkind hverify hsession hstate =>
          obtain ⟨session, hfound, htoken⟩ := ServerApp.verifySession_eq_true.mp hverify
          obtain rfl := Option.some.inj (hsession.symm.trans hfound)
          rw [step_reattached hwf hp hshake hpossible hkind hsession htoken hstate,
            Except.ok.injEq] at hstep
          subst hstep
          exact lastSeen?_authenticated (c := c.authenticate rest i.now)
            (ServerApp.deref_store_self (s := s.beginEvent i.now) hp rfl) rfl
  | pinged hp hstatus hreceives hpinged hsession =>
      obtain ⟨session, hsession⟩ := Option.ne_none_iff_exists'.mp hsession
      rw [step_ponged hwf hp ⟨_, hreceives, hstatus, rfl⟩ (pinged_iff.mp hpinged) hsession
        hpossible, Except.ok.injEq] at hstep
      subst hstep
      exact lastSeen?_authenticated
        (ServerApp.deref_replied (s := s.beginEvent i.now) hp (by rfl) _) hstatus

theorem lastSeen_of_change (hp : s.deref p = some c) (h : ¬Refreshes p i s)
    {c' : ClientConnection} {filter : Bool} (hchange : Change i s p c c' filter)
    (hstatus : c'.status = .authenticated) :
    c.status = .authenticated ∧ c'.lastSeen = c.lastSeen := by
  have hguest : c.status ≠ .awaitingAuth := fun hawaiting =>
    h (.authenticated hp (credentials_of_change hchange hawaiting hstatus))
  cases hchange with
  | kept => exact ⟨hstatus, rfl⟩
  | loggedIn hshake | reattached hshake => exact absurd hshake.awaiting hguest
  | relayed hstreams => exact ⟨hstreams.authenticated, rfl⟩
  | hears hauthenticated => exact ⟨hauthenticated, rfl⟩
  | timedOut => simp at hstatus
  | edited hedit =>
      have hsame : c.status = .authenticated := by
        rcases hedit.status with hsame | ⟨hawaiting, -⟩
        · exact hsame ▸ hstatus
        · exact absurd hawaiting hguest
      refine ⟨hsame, ?_⟩
      cases hedit with
      | pong hstreams hresult hsession =>
          obtain ⟨bytes, hreceives, -, rfl⟩ := hstreams
          exact absurd (.pinged hp hsame hreceives (pinged_iff.mpr hresult) (by simp [hsession])) h
      | _ => rfl

theorem lastSeen?_kept (hwf : WellFormed s) (h : ¬Refreshes p i s)
    (hstep : Outcome i s (.ok s')) : lastSeen? p s' = lastSeen? p s ∨ lastSeen? p s' = none := by
  cases hlast : lastSeen? p s' with
  | none => exact .inr rfl
  | some time =>
      obtain ⟨c', hp', hstatus, rfl⟩ := lastSeen?_eq_some.mp hlast
      rcases traced_of_outcome hwf hstep hp' with ⟨_, _, _, rfl, _⟩ | ⟨c, hp, hchange⟩
      · simp [ClientConnection.create] at hstatus
      · obtain ⟨hbefore, hsame⟩ := lastSeen_of_change hp h hchange hstatus
        rw [lastSeen?_authenticated hp hbefore, hsame]
        exact .inl rfl

theorem heartbeat_lawful (hwf : WellFormed s) (hstep : step i s = .ok s') :
    (heartbeat p).Lawful ⟨s, i, s'⟩ where
  noted := fun h => lastSeen?_refreshes hwf h hstep
  other := fun h => lastSeen?_kept hwf h (hstep ▸ outcome_step hwf)
  givesUp := marksTimedOut_iff

/-! ## The clock -/

theorem times_sorted {now : Time} {history : List (Transition ServerApp Input)}
    (hrun : ServerRun now history s) :
    (history.map (·.input.now)).Pairwise (· ≤ ·) ∧ ∀ t ∈ history, t.input.now ≤ s.clock := by
  induction hrun with
  | start => simp
  | @next history s s' i hrun hstep ih =>
      obtain ⟨hsorted, hpast⟩ := ih
      have hlater := (possible_of_step hstep).1
      have hclock := (outcome_of_run hrun hstep).clock
      refine ⟨?_, fun t ht => ?_⟩
      · rw [List.map_append, List.map_singleton, List.pairwise_append]
        refine ⟨hsorted, List.pairwise_singleton _ _, fun x hx y hy => ?_⟩
        obtain ⟨t, ht, rfl⟩ := List.mem_map.mp hx
        rw [List.mem_singleton] at hy
        exact hy ▸ (hpast t ht).trans hlater
      · rw [hclock]
        rcases List.mem_append.mp ht with ht | ht
        · exact (hpast t ht).trans hlater
        · rw [List.mem_singleton] at ht
          rw [ht]

/-- In every run the server closes no connection of an active user if and only if it has
refreshed the time of every active user whenever the timer ticks. -/
theorem heartbeats_exact {now : Time} {history : List (Transition ServerApp Input)}
    (hrun : ServerRun now history s) (p : ConnectionPtr) :
    (heartbeat p).Patient history ↔ (heartbeat p).Attended (initialState now) history := by
  refine Watchdog.patient_iff_attended hrun (fun t ht => ?_) (times_sorted hrun).1
  obtain ⟨hstep, before, hbefore⟩ := hrun.transition ht
  exact heartbeat_lawful (wellFormed_of_run hbefore) hstep

end

end TChat.Server
