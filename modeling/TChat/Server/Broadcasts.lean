import TChat.Server.Proofs.Actions
import TChat.Server.Sessions
/-!
# Who hears which broadcast

The broadcasts of a run form one sequence.  What is queued on a connection over
the run is the part of that sequence it was authenticated for, and nothing else,
so that all connections agree on the order.
-/

namespace TChat.Server

open TChat.Common TChat.Lib

/-- A call of `broadcast`, with the state in which it was made. -/
structure Announcement where
  state : ServerApp
  sender : Option ConnectionPtr
  packet : Bytes

/-- Whether the connection `q` is authenticated and did not send it. -/
def Announcement.reaches (a : Announcement) (q : ConnectionPtr) : Bool :=
  a.sender ≠ some q ∧ (a.state.deref q).any (·.status = .authenticated)

def broadcasts (s : ServerApp) (actions : List Action) : List Announcement :=
  actions.filterMap fun
    | .broadcast sender packet => some ⟨s, sender, packet⟩
    | _ => none

def messagesTo (q : ConnectionPtr) (actions : List Action) : List Bytes :=
  actions.filterMap fun
    | .queueWrite r packet =>
        if r = q ∧ packetType? packet = some .message then some packet else none
    | _ => none

def announcements (history : List (Transition ServerApp Input)) : List Announcement :=
  history.flatMap fun t => broadcasts t.pre t.post.actions

def messagesHeard (history : List (Transition ServerApp Input)) (q : ConnectionPtr) :
    List Bytes :=
  history.flatMap fun t => messagesTo q t.post.actions

def announcedTo (history : List (Transition ServerApp Input)) (q : ConnectionPtr) :
    List Announcement :=
  (announcements history).filter (·.reaches q)

section

variable {i : Input} {s s' : ServerApp} {q : ConnectionPtr} {packet : Bytes}

theorem reaches_iff {sender : Option ConnectionPtr} (packet : Bytes) :
    Announcement.reaches ⟨s, sender, packet⟩ q = true ↔ s.Hears sender q := by
  simp only [Announcement.reaches, ServerApp.Hears, Option.any_eq_true, decide_eq_true_eq]

theorem Announces.type {sender : Option ConnectionPtr} (h : Announces i s sender packet) :
    packetType? packet = some .message := by
  cases h <;> exact packetType?_createPacketStream _ _

theorem Replies.type (h : Replies i s q packet) : packetType? packet ≠ some .message := by
  cases h with
  | @refusal _ _ _ status => cases status <;> simp [Server.refusal]
  | _ => simp

theorem messagesTo_audience {audience : List ConnectionPtr} (hnodup : audience.Nodup)
    (htype : packetType? packet = some .message) :
    messagesTo q (audience.map (.queueWrite · packet)) =
      if q ∈ audience then [packet] else [] := by
  induction audience with
  | nil => rfl
  | cons r rest ih =>
      rw [List.nodup_cons] at hnodup
      have hrest := ih hnodup.2
      unfold messagesTo at hrest ⊢
      by_cases hr : r = q
      · subst hr
        rw [if_neg hnodup.1] at hrest
        simp [htype, hrest]
      · simp [hr, Ne.symm hr, hrest]

/-- One event: the messages queued on `q` are those of its broadcasts that reach `q`. -/
theorem messagesTo_of_performs {actions : List Action} (h : Performs i s actions) :
    messagesTo q actions = ((broadcasts s actions).filter (·.reaches q)).map (·.packet) := by
  cases h with
  | silent hquiet =>
      have hnone : broadcasts s actions = [] := by
        refine List.filterMap_eq_nil_iff.mpr fun a ha => ?_
        have := hquiet a ha
        cases a <;> simp_all [Quiet]
      have hsilent : messagesTo q actions = [] := by
        refine List.filterMap_eq_nil_iff.mpr fun a ha => ?_
        have hreplies := hquiet a ha
        cases a with
        | queueWrite r packet => simp [Replies.type hreplies]
        | _ => rfl
      rw [hnone, hsilent]
      rfl
  | @announces sender packet audience hannounces hnodup haudience =>
      have hqueued := messagesTo_audience (q := q) hnodup hannounces.type
      have hone : broadcasts s (.broadcast sender packet :: audience.map (.queueWrite · packet)) =
          [⟨s, sender, packet⟩] := by
        simp [broadcasts]
      have hcons : messagesTo q
          (.broadcast sender packet :: audience.map (.queueWrite · packet)) =
            messagesTo q (audience.map (.queueWrite · packet)) := rfl
      rw [hone, hcons, hqueued]
      by_cases hhears : s.Hears sender q
      · have hreaches := (reaches_iff packet).mpr hhears
        rw [if_pos ((haudience q).mpr hhears)]
        simp [hreaches]
      · have hreaches : ¬Announcement.reaches ⟨s, sender, packet⟩ q = true := by
          rwa [reaches_iff]
        rw [if_neg fun hmem => hhears ((haudience q).mp hmem)]
        simp [hreaches]

theorem announces_of_performs {actions : List Action} (h : Performs i s actions)
    {a : Announcement} (ha : a ∈ broadcasts s actions) :
    a.state = s ∧ Announces i s a.sender a.packet := by
  cases h with
  | silent hquiet =>
      obtain ⟨action, haction, hbroadcast⟩ := List.mem_filterMap.mp ha
      have := hquiet action haction
      cases action <;> simp_all [Quiet]
  | announces hannounces =>
      simp only [broadcasts, List.filterMap_cons, List.filterMap_map, List.mem_cons,
        List.mem_filterMap] at ha
      rcases ha with rfl | ⟨_, _, hnone⟩
      · exact ⟨rfl, hannounces⟩
      · simp at hnone

end

/-! ## Runs -/

variable {now : Time} {history : List (Transition ServerApp Input)} {s : ServerApp}

theorem performs_of_run (hrun : ServerRun now history s) {t : Transition ServerApp Input}
    (ht : t ∈ history) : Performs t.input t.pre t.post.actions := by
  obtain ⟨hstep, before, hbefore⟩ := hrun.transition ht
  exact (outcome_of_run hbefore hstep).performs (wellFormed_of_run hbefore)

/-- In every run, the Message packets queued on a connection are the broadcasts
made by others while it was authenticated, in the order in which they were made,
each once.  Two connections therefore agree on the order of what both receive. -/
theorem messages_heard (hrun : ServerRun now history s) :
    (∀ q, messagesHeard history q = (announcedTo history q).map (·.packet)) ∧
    (∀ q, (announcedTo history q).Sublist (announcements history)) ∧
    (∀ q r, (announcedTo history q).filter (·.reaches r) =
      (announcedTo history r).filter (·.reaches q)) ∧
    ∀ a ∈ announcements history,
      (∃ p name text, a.sender = some p ∧ a.packet = ServerApp.clientBroadcast name text) ∨
        ∃ text, a.sender = none ∧ a.packet = ServerApp.serverBroadcast text := by
  refine ⟨?_, ?_, ?_, ?_⟩
  · intro q
    simp only [messagesHeard, announcedTo, announcements, List.filter_flatMap, List.map_flatMap]
    exact List.flatMap_congr fun t ht => messagesTo_of_performs (performs_of_run hrun ht)
  · intro q
    exact List.filter_sublist
  · intro q r
    exact List.filter_comm _ _ _
  · intro a ha
    obtain ⟨t, ht, ha⟩ := List.mem_flatMap.mp ha
    obtain ⟨_, hannounces⟩ := announces_of_performs (performs_of_run hrun ht) ha
    obtain ⟨state, sender, packet⟩ := a
    cases hannounces with
    | client => exact .inl ⟨_, _, _, rfl, rfl⟩
    | console => exact .inr ⟨_, rfl, rfl⟩

/-- Two clients log in and one of them speaks. -/
theorem messages_heard_twice : ∃ history s, ServerRun 0 history s ∧
    messagesHeard history ⟨6, 1⟩ =
      [ServerApp.clientBroadcast (literal "a") (literal "hello")] ∧
    messagesHeard history ⟨6, 1⟩ = (announcedTo history ⟨6, 1⟩).map (·.packet) := by
  obtain ⟨history, s, hrun, h⟩ := Run.exists_of_execute step
    [accepting 5, accepting 6,
      receiving 5 (loginPacket (literal "a") (literal "b")),
      receiving 6 (loginPacket (literal "c") (literal "d")),
      receiving 5 (createPacketStream .message (literal "hello"))] (initialState 0)
    (fun history _ => messagesHeard history ⟨6, 1⟩ =
      [ServerApp.clientBroadcast (literal "a") (literal "hello")])
    (by decide +kernel)
  exact ⟨history, s, hrun, by simpa using h, (messages_heard hrun).1 _⟩

end TChat.Server
