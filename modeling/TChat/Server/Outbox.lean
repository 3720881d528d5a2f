import TChat.Common.Transmission
import TChat.Server.Proofs.Fates
/-!
# What a run sends on a connection

The packets that the events of a run queue on one connection, and the calls of
`SSL_write` they make on it.  Whatever the events are, the queue of the connection is
what its own history left, so what the peer is handed is the beginning of what was
queued.
-/

namespace TChat.Server

open TChat.Common TChat.Lib

def queuedDuring (p : ConnectionPtr) (history : List (Transition ServerApp Input)) :
    List Bytes :=
  history.flatMap fun t => queuedOn p t.post.actions

def callsDuring (p : ConnectionPtr) (history : List (Transition ServerApp Input)) :
    List SslWriteCall :=
  history.flatMap fun t => callsOn p t.post.actions

section

variable {i : Input} {s s' : ServerApp} {p : ConnectionPtr} {c : ClientConnection}
  {queued packets : List Bytes} {calls made : List SslWriteCall}

theorem queuedDuring_append (p : ConnectionPtr) (history : List (Transition ServerApp Input))
    (t : Transition ServerApp Input) :
    queuedDuring p (history ++ [t]) = queuedDuring p history ++ queuedOn p t.post.actions := by
  simp [queuedDuring]

theorem queuedDuring_split (p : ConnectionPtr) (before after : List (Transition ServerApp Input))
    (t : Transition ServerApp Input) :
    queuedDuring p (before ++ t :: after) =
      queuedDuring p before ++ (queuedOn p t.post.actions ++ queuedDuring p after) := by
  rw [queuedDuring, List.flatMap_append, List.flatMap_cons, ← queuedDuring, ← queuedDuring]

theorem callsDuring_append (p : ConnectionPtr) (history : List (Transition ServerApp Input))
    (t : Transition ServerApp Input) :
    callsDuring p (history ++ [t]) = callsDuring p history ++ callsOn p t.post.actions := by
  simp [callsDuring]

theorem Fate.transmission {after : Option ClientConnection}
    (h : Transmission storeOffset queued calls c.toOutgoing)
    (hfate : Fate i s p c after packets made) :
    ∃ out, Transmission storeOffset (queued ++ packets) (calls ++ made) out ∧
      ∀ c' ∈ after, c'.toOutgoing = out := by
  have hquiet : Transmission storeOffset (queued ++ []) (calls ++ []) c.toOutgoing := by
    simpa using h
  have hsent (packet : Bytes) :
      Transmission storeOffset (queued ++ [packet]) (calls ++ [])
        (c.toOutgoing.queueWrite packet) := by
    simpa using h.queued
  cases hfate with
  | kept | reattached | relayed | timedOut => exact ⟨_, hquiet, by rintro c' ⟨⟩; rfl⟩
  | loggedIn | hears => exact ⟨_, hsent _, by rintro c' ⟨⟩; rfl⟩
  | removed => exact ⟨_, hquiet, nofun⟩
  | edited hedit =>
      cases hedit with
      | flushed _ hflush =>
          refine ⟨_, ?_, by rintro c' ⟨⟩; rfl⟩
          simpa [callsOn_sslWrites] using h.flagged.flushed hflush
      | loginRefused | registered | pong =>
          refine ⟨_, ?_, by rintro c' ⟨⟩; rfl⟩
          rw [queuedOn_queueWrite, if_pos rfl]
          exact hsent _
      | _ => exact ⟨_, hquiet, by rintro c' ⟨⟩; rfl⟩
  | dropped hdrop =>
      cases hdrop with
      | @flushed flush _ hflush =>
          refine ⟨flush.outgoing, ?_, nofun⟩
          simpa [callsOn_sslWrites] using h.flagged.flushed hflush
      | _ => exact ⟨_, hquiet, nofun⟩

variable {now : Time} {history : List (Transition ServerApp Input)}

theorem transmission_of_run (hrun : ServerRun now history s) (p : ConnectionPtr) :
    ∃ out, Transmission storeOffset (queuedDuring p history) (callsDuring p history) out ∧
      ∀ c ∈ s.deref p, c.toOutgoing = out := by
  have hinvariant : (s.nextNode ≤ p.node →
      queuedDuring p history = [] ∧ callsDuring p history = []) ∧
      ∃ out, Transmission storeOffset (queuedDuring p history) (callsDuring p history) out ∧
        ∀ c ∈ s.deref p, c.toOutgoing = out := by
    refine hrun.invariant_of (fun _ => True)
      (fun history s => (s.nextNode ≤ p.node →
        queuedDuring p history = [] ∧ callsDuring p history = []) ∧
        ∃ out, Transmission storeOffset (queuedDuring p history) (callsDuring p history) out ∧
          ∀ c ∈ s.deref p, c.toOutgoing = out) ?_ ?_ fun _ _ => trivial
    · refine ⟨fun _ => ⟨rfl, rfl⟩, ⟨[], 0, false⟩, .fresh, ?_⟩
      simp [initialState, ServerApp.deref]
    · rintro history s s' i hrun ⟨hunused, out, hsent, hout⟩ hstep -
      have hwf := wellFormed_of_run hrun
      have houtcome := outcome_of_run hrun hstep
      rw [queuedDuring_append, callsDuring_append]
      cases hp : s.deref p with
      | some c =>
          have hlt := hwf.node_lt_of_deref hp
          obtain rfl := hout c hp
          refine ⟨fun hnext => ?_, (fate_of_outcome hwf houtcome hp).transmission hsent⟩
          have := houtcome.nextNode
          omega
      | none =>
          obtain ⟨hqueued, hcalls⟩ := silent_of_outcome houtcome hp
          rw [hqueued, hcalls, List.append_nil, List.append_nil]
          refine ⟨fun hnext => hunused (houtcome.nextNode.trans hnext), ?_⟩
          cases hp' : s'.deref p with
          | none => exact ⟨out, hsent, by simp⟩
          | some c' =>
              rcases traced_of_outcome hwf houtcome hp' with
                ⟨fd, _, rfl, rfl, _⟩ | ⟨c, hc, _⟩
              · obtain ⟨hnone, hnone'⟩ := hunused le_rfl
                rw [hnone, hnone']
                exact ⟨_, .fresh, by rintro c' ⟨⟩; rfl⟩
              · simp [hp] at hc
  exact hinvariant.2

/-- What a run has handed to TLS on a connection is the beginning of what it has
queued there, and the rest is in the queue as long as the connection is there. -/
theorem accepted_of_run (hrun : ServerRun now history s) (p : ConnectionPtr) :
    accepted (callsDuring p history) <+: (queuedDuring p history).flatten ∧
      ∀ c, s.deref p = some c →
        accepted (callsDuring p history) ++ c.unsent = (queuedDuring p history).flatten := by
  obtain ⟨out, hsent, hout⟩ := transmission_of_run hrun p
  have hconserved := (hsent.transmitted fun n hn => storeOffset_of_le hn).conserved
  refine ⟨⟨out.unsent, hconserved⟩, fun c hc => ?_⟩
  rw [hout c hc]
  exact hconserved

/-- All of it comes from the packets in front of the first that does not fit an `int`. -/
theorem accepted_small_of_run (hrun : ServerRun now history s) (p : ConnectionPtr) :
    accepted (callsDuring p history) <+:
      ((queuedDuring p history).takeWhile (·.length ≤ intMax)).flatten := by
  obtain ⟨out, hsent, -⟩ := transmission_of_run hrun p
  exact hsent.accepted_small fun n hn => storeOffset_of_le hn

end

end TChat.Server
