import TChat.Server.Proofs.Fates
import TChat.Server.Sessions
/-!
# Descriptors and SSL objects

`accept_client` obtains a descriptor and an SSL object and hands both to an entry of
`connections_`, or backs out along one of its exits; `disconnect` gives both back.
Whatever happens, each of them is owned by one entry or has been released, once.
-/

namespace TChat.Server

open TChat.Common TChat.Lib

/-- Calls that obtain a thing and release it in turn.  `held`: the last release is
still to come. -/
inductive Paired {α : Type} (acquire release : α) : Bool → List α → Prop
  | nil : Paired acquire release false []
  | acquired {calls : List α} :
      Paired acquire release false calls → Paired acquire release true (calls ++ [acquire])
  | released {calls : List α} :
      Paired acquire release true calls → Paired acquire release false (calls ++ [release])

inductive Resource
  | descriptor (fd : Fd)
  | sslObject (ssl : Nat)
  deriving DecidableEq

namespace Resource

def acquire : Resource → Action
  | .descriptor fd => .accept fd
  | .sslObject ssl => .sslNew ssl

def release : Resource → Action
  | .descriptor fd => .close fd
  | .sslObject ssl => .sslFree ssl

def HeldBy (c : ClientConnection) : Resource → Prop
  | .descriptor fd => c.fd = fd
  | .sslObject ssl => c.ssl = some ssl

instance (c : ClientConnection) (r : Resource) : Decidable (r.HeldBy c) :=
  match r with
  | .descriptor fd => inferInstanceAs (Decidable (c.fd = fd))
  | .sslObject ssl => inferInstanceAs (Decidable (c.ssl = some ssl))

def calls (r : Resource) (actions : List Action) : List Action :=
  actions.filter fun a => a = r.acquire ∨ a = r.release

end Resource

def ServerApp.Owner (s : ServerApp) (r : Resource) (p : ConnectionPtr) : Prop :=
  ∃ c, s.deref p = some c ∧ r.HeldBy c

def deeds (history : List (Transition ServerApp Input)) : List Action :=
  history.flatMap (·.post.actions)

/-- A resource is owned by exactly one entry, or has been released. -/
inductive Custody (r : Resource) (actions : List Action) (s : ServerApp) : Prop
  | owned : Paired r.acquire r.release true (r.calls actions) → (∃! p, s.Owner r p) →
      Custody r actions s
  | released : Paired r.acquire r.release false (r.calls actions) → (∀ p, ¬s.Owner r p) →
      Custody r actions s

/-- `Handling r s s' calls`: what an event does about a resource. -/
inductive Handling (r : Resource) (s s' : ServerApp) : List Action → Prop
  | untouched : (∀ p, s'.Owner r p ↔ s.Owner r p) → Handling r s s' []
  | backedOut : (∀ p, ¬s.Owner r p) → (∀ p, ¬s'.Owner r p) →
      Handling r s s' [r.acquire, r.release]
  | taken {p : ConnectionPtr} : (∀ q, ¬s.Owner r q) → (∀ q, s'.Owner r q ↔ q = p) →
      Handling r s s' [r.acquire]
  | released {p : ConnectionPtr} : s.Owner r p → (∀ q, ¬s'.Owner r q) →
      Handling r s s' [r.release]

/-! ## One event -/

section

variable {i : Input} {s s' : ServerApp} {r : Resource} {p q : ConnectionPtr}
  {c d : ClientConnection} {actions : List Action}

theorem Resource.calls_append (r : Resource) (a b : List Action) :
    r.calls (a ++ b) = r.calls a ++ r.calls b :=
  List.filter_append ..

theorem Custody.handled {calls : List Action} (h : Custody r actions s)
    (hhandling : Handling r s s' (r.calls calls)) : Custody r (actions ++ calls) s' := by
  obtain ⟨made, hmade⟩ : ∃ made, r.calls calls = made := ⟨_, rfl⟩
  rw [hmade] at hhandling
  cases h with
  | owned hpaired howner =>
      cases hhandling with
      | untouched hsame =>
          refine .owned ?_ (by simpa only [hsame] using howner)
          rwa [Resource.calls_append, hmade, List.append_nil]
      | backedOut hnone | taken hnone =>
          obtain ⟨p, hp, _⟩ := howner
          exact absurd hp (hnone p)
      | released _ hgone =>
          refine .released ?_ hgone
          rw [Resource.calls_append, hmade]
          exact hpaired.released
  | released hpaired hnone =>
      cases hhandling with
      | untouched hsame =>
          refine .released ?_ (by simpa only [hsame] using hnone)
          rwa [Resource.calls_append, hmade, List.append_nil]
      | backedOut _ hgone =>
          refine .released ?_ hgone
          rw [Resource.calls_append, hmade]
          simpa using hpaired.acquired.released
      | @taken p _ howner =>
          refine .owned ?_ ⟨p, (howner p).mpr rfl, fun q hq => (howner q).mp hq⟩
          rw [Resource.calls_append, hmade]
          exact hpaired.acquired
      | released howner => exact absurd howner (hnone _)

/-- No two entries own the same thing, and the SSL objects are numbered. -/
structure Numbered (s : ServerApp) : Prop where
  unique : ∀ {r p q}, s.Owner r p → s.Owner r q → p = q
  below : ∀ {p ssl}, s.Owner (.sslObject ssl) p → ssl < s.nextSsl

theorem calls_departure (hfd : c.fd = p.fd) :
    r.calls (departure p c.ssl) = if r.HeldBy c then [r.release] else [] := by
  cases r with
  | descriptor fd =>
      cases hssl : c.ssl <;> by_cases h : c.fd = fd <;>
        simp [departure, Resource.calls, Resource.acquire, Resource.release, Resource.HeldBy,
          ← hfd, h]
  | sslObject ssl =>
      cases hssl : c.ssl with
      | none =>
          simp [departure, Resource.calls, Resource.acquire, Resource.release, Resource.HeldBy,
            hssl]
      | some ssl' =>
          by_cases h : ssl' = ssl <;>
            simp [departure, Resource.calls, Resource.acquire, Resource.release,
              Resource.HeldBy, hssl, h]

def Action.Unrelated : Action → Prop
  | .queueWrite _ _ => True
  | .broadcast _ _ => True
  | .sslWrite _ _ => True
  | _ => False

theorem calls_unrelated (h : ∀ a ∈ actions, a.Unrelated) : r.calls actions = [] := by
  rw [Resource.calls, List.filter_eq_nil_iff]
  intro a ha
  have hunrelated := h a ha
  cases r <;> cases a <;>
    first
      | exact absurd hunrelated id
      | simp [Resource.acquire, Resource.release]

theorem Edit.unrelated {c' : ClientConnection} {filter : Option Bool}
    (h : Edit i s p c c' filter actions) : ∀ a ∈ actions, a.Unrelated := by
  cases h <;> simp [Action.Unrelated]

theorem Drop.unrelated {buffer : Bytes} (h : Drop i s p c buffer actions) :
    ∀ a ∈ actions, a.Unrelated := by
  cases h <;> simp [Action.Unrelated]

def ServerApp.belongings (s : ServerApp) (p : ConnectionPtr) : Option (Fd × Option Nat) :=
  (s.deref p).map fun c => (c.fd, c.ssl)

theorem owner_congr (h : s'.belongings p = s.belongings p) : s'.Owner r p ↔ s.Owner r p := by
  unfold ServerApp.belongings at h
  unfold ServerApp.Owner
  cases hd : s.deref p with
  | none =>
      rw [hd, Option.map_none, Option.map_eq_none_iff] at h
      simp [h]
  | some c =>
      rw [hd, Option.map_some, Option.map_eq_some_iff] at h
      obtain ⟨c', hc', hsame⟩ := h
      obtain ⟨hfd, hssl⟩ := Prod.mk.inj hsame
      rw [hc']
      cases r <;> simp [Resource.HeldBy, hfd, hssl]

theorem owner_store {t : ServerApp} (ht : ∀ q, t.deref q = if q = p then some d else s.deref q)
    (hp : s.deref p = some c) (hfd : d.fd = c.fd) (hssl : d.ssl = c.ssl) (q : ConnectionPtr) :
    t.Owner r q ↔ s.Owner r q := by
  refine owner_congr ?_
  rw [ServerApp.belongings, ServerApp.belongings, ht]
  split_ifs with hq
  · rw [hq, hp, Option.map_some, Option.map_some, hfd, hssl]
  · rfl

theorem owner_broadcast (sender : Option ConnectionPtr) (senderFd : Fd) (packet : Bytes)
    (q : ConnectionPtr) :
    (s.broadcastAndEnable i sender senderFd packet).Owner r q ↔ s.Owner r q := by
  refine owner_congr ?_
  rw [ServerApp.belongings, ServerApp.belongings, ServerApp.deref_broadcastAndEnable,
    Option.map_map]
  congr 1
  funext c
  simp only [Function.comp_apply]
  split_ifs <;> rfl

theorem unrelated_broadcast {sender : Option ConnectionPtr} {senderFd : Fd} {packet : Bytes}
    (hactions : s.actions = []) :
    ∀ a ∈ (s.broadcastAndEnable i sender senderFd packet).actions, a.Unrelated := by
  rw [broadcast_actions hactions]
  intro a ha
  rcases List.mem_cons.mp ha with rfl | ha
  · trivial
  · obtain ⟨_, _, rfl⟩ := List.mem_map.mp ha
    trivial

theorem not_owner_of_closed (hwf : WellFormed s) {fd : Fd} (h : s.openFd fd = false)
    (p : ConnectionPtr) : ¬s.Owner (.descriptor fd) p := by
  rintro ⟨c, hp, hc⟩
  have hok := hwf.deref_ok hp
  have hfd : p.fd = fd := hok.fd_eq.symm.trans hc
  rw [← hfd, hok.openFd] at h
  exact Bool.noConfusion h

theorem Numbered.not_owner (h : Numbered s) (p : ConnectionPtr) :
    ¬s.Owner (.sslObject s.nextSsl) p :=
  fun hp => absurd (h.below hp) (lt_irrefl _)

/-- Every exit of `accept_client` before the client is taken. -/
theorem TurnedAway.exits (h : TurnedAway i s s') :
    (s'.actions = [] ∧ s'.nextSsl = s.nextSsl) ∨
      ∃ fd, s.openFd fd = false ∧
        (s'.actions = [.accept fd, .close fd] ∧ s'.nextSsl = s.nextSsl ∨
          s'.actions = [.accept fd, .sslNew s.nextSsl, .sslFree s.nextSsl, .close fd] ∧
            s'.nextSsl = s.nextSsl + 1) := by
  have hopen := h.openFd
  have hconnections := h.connections
  obtain ⟨call, -, rfl⟩ := h.event
  cases hctx : s.sslCtx with
  | none =>
      left
      simp [ClientManager.acceptClient, hctx]
  | some ctx =>
      cases call with
      | wouldBlock | failed =>
          left
          simp [ClientManager.acceptClient, hctx]
      | accepted fd sslNew sslSetFd sslAccept =>
          refine .inr ⟨fd, ?_⟩
          simp only [ClientManager.acceptClient, ServerApp.beginEvent_sslCtx, hctx] at *
          have hfd := congrFun hopen fd
          have hfound := congrArg (fun m => m.find? fd) hconnections
          clear hopen hconnections h
          unfold ClientManager.setUpClient at hfd hfound ⊢
          dsimp only at hfd hfound ⊢
          split_ifs at hfd hfound ⊢
          all_goals simp_all [ClientManager.abandon, ServerApp.closeFd, ServerApp.log]

theorem handling_of_turnedAway (hwf : WellFormed s) (hnumbered : Numbered s)
    (h : TurnedAway i s s') : Handling r s s' (r.calls s'.actions) := by
  have hsame (p : ConnectionPtr) : s'.Owner r p ↔ s.Owner r p :=
    owner_congr (by rw [ServerApp.belongings, ServerApp.deref_congr h.connections]; rfl)
  rcases h.exits with ⟨hactions, -⟩ | ⟨fd, hclosed, hexit⟩
  · rw [hactions]
    exact .untouched hsame
  · have hdescriptor := not_owner_of_closed hwf hclosed
    have hobject := hnumbered.not_owner
    have hback {acquired : Resource} (hfree : ∀ p, ¬s.Owner acquired p)
        (hcalls : acquired.calls s'.actions = [acquired.acquire, acquired.release])
        (hr : r = acquired) :
        Handling r s s' (r.calls s'.actions) := by
      subst hr
      rw [hcalls]
      exact .backedOut hfree fun p hp => hfree p ((hsame p).mp hp)
    have huntouched (hcalls : r.calls s'.actions = []) :
        Handling r s s' (r.calls s'.actions) := by
      rw [hcalls]
      exact .untouched hsame
    cases r with
    | descriptor other =>
        by_cases hfd : other = fd
        · subst hfd
          refine hback hdescriptor ?_ rfl
          rcases hexit with ⟨hactions, -⟩ | ⟨hactions, -⟩ <;> rw [hactions] <;>
            simp [Resource.calls, Resource.acquire, Resource.release]
        · refine huntouched ?_
          rcases hexit with ⟨hactions, -⟩ | ⟨hactions, -⟩ <;> rw [hactions] <;>
            simp [Resource.calls, Resource.acquire, Resource.release, Ne.symm hfd]
    | sslObject ssl =>
        rcases hexit with ⟨hactions, -⟩ | ⟨hactions, -⟩
        · refine huntouched ?_
          rw [hactions]
          simp [Resource.calls, Resource.acquire, Resource.release]
        · by_cases hssl : ssl = s.nextSsl
          · subst hssl
            refine hback hobject ?_ rfl
            rw [hactions]
            simp [Resource.calls, Resource.acquire, Resource.release]
          · refine huntouched ?_
            rw [hactions]
            simp [Resource.calls, Resource.acquire, Resource.release, Ne.symm hssl]

theorem handling_of_admitted {fd : Fd} (hwf : WellFormed s) (hnumbered : Numbered s)
    (hclosed : s.openFd fd = false) :
    Handling r s ((s.beginEvent i.now).addConnection i fd)
      (r.calls [.accept fd, .sslNew s.nextSsl]) := by
  have hfree := ServerApp.find?_of_openFd hwf hclosed
  have hderef (q : ConnectionPtr) : ((s.beginEvent i.now).addConnection i fd).deref q =
      if q = ⟨fd, s.nextNode⟩ then some (.create s.nextNode fd (some s.nextSsl) i.now)
      else s.deref q :=
    deref_addConnection (s := s.beginEvent i.now) i hfree q
  have hnew : s.deref ⟨fd, s.nextNode⟩ = none := by
    simp [ServerApp.deref, hfree]
  have howner (q : ConnectionPtr) : ((s.beginEvent i.now).addConnection i fd).Owner r q ↔
      if q = ⟨fd, s.nextNode⟩ then r = .descriptor fd ∨ r = .sslObject s.nextSsl
      else s.Owner r q := by
    rw [ServerApp.Owner, hderef]
    by_cases hq : q = ⟨fd, s.nextNode⟩
    · rw [if_pos hq, if_pos hq]
      cases r <;> simp [Resource.HeldBy, ClientConnection.create, eq_comm]
    · rw [if_neg hq, if_neg hq]
      rfl
  by_cases hr : r = .descriptor fd ∨ r = .sslObject s.nextSsl
  · have hnone (q : ConnectionPtr) : ¬s.Owner r q := by
      rcases hr with rfl | rfl
      · exact not_owner_of_closed hwf hclosed q
      · exact hnumbered.not_owner q
    have hcalls : r.calls [.accept fd, .sslNew s.nextSsl] = [r.acquire] := by
      rcases hr with rfl | rfl <;> simp [Resource.calls, Resource.acquire, Resource.release]
    rw [hcalls]
    refine .taken (p := ⟨fd, s.nextNode⟩) hnone fun q => (howner q).trans ?_
    split_ifs with hq
    · exact iff_of_true hr hq
    · exact iff_of_false (hnone q) hq
  · have hcalls : r.calls [.accept fd, .sslNew s.nextSsl] = [] := by
      cases r with
      | descriptor other =>
          have hother : fd ≠ other := fun h => hr (.inl (by rw [h]))
          simp [Resource.calls, Resource.acquire, Resource.release, hother]
      | sslObject ssl =>
          have hother : s.nextSsl ≠ ssl := fun h => hr (.inr (by rw [h]))
          simp [Resource.calls, Resource.acquire, Resource.release, hother]
    rw [hcalls]
    refine .untouched fun q => (howner q).trans ?_
    split_ifs with hq
    · subst hq
      refine iff_of_false hr ?_
      rintro ⟨c, hc, -⟩
      simp [hnew] at hc
    · rfl

theorem calls_departures {entries : List (Fd × ClientConnection)}
    (hfd : ∀ entry ∈ entries, entry.2.fd = entry.1) :
    r.calls (entries.flatMap fun entry => departure (pointer entry) entry.2.ssl) =
      (entries.filter fun entry => r.HeldBy entry.2).map fun _ => r.release := by
  induction entries with
  | nil => rfl
  | cons entry rest ih =>
      rw [List.flatMap_cons, Resource.calls_append,
        calls_departure (c := entry.2) (hfd entry List.mem_cons_self),
        ih fun e he => hfd e (List.mem_cons_of_mem _ he)]
      by_cases hheld : r.HeldBy entry.2
      · rw [if_pos hheld, List.filter_cons_of_pos (by simpa using hheld)]
        rfl
      · rw [if_neg hheld, List.filter_cons_of_neg (by simpa using hheld)]
        rfl

/-- Disconnecting entries releases what they own, each of them once. -/
theorem handling_of_departures {t : ServerApp} {entries : List (Fd × ClientConnection)}
    (hnumbered : Numbered s) (hnodup : (entries.map pointer).Nodup)
    (hentries : ∀ entry ∈ entries, entry.2.fd = entry.1 ∧
      s.belongings (pointer entry) = some (entry.2.fd, entry.2.ssl))
    (ht : ∀ q, t.belongings q = if q ∈ entries.map pointer then none else s.belongings q) :
    Handling r s t
      (r.calls (entries.flatMap fun entry => departure (pointer entry) entry.2.ssl)) := by
  have howner (entry : Fd × ClientConnection) (hentry : entry ∈ entries) :
      s.Owner r (pointer entry) ↔ r.HeldBy entry.2 := by
    obtain ⟨-, hbelongings⟩ := hentries entry hentry
    obtain ⟨c, hc, hsame⟩ := Option.map_eq_some_iff.mp hbelongings
    obtain ⟨hfd, hssl⟩ := Prod.mk.inj hsame
    rw [ServerApp.Owner, hc]
    cases r <;> simp [Resource.HeldBy, hfd, hssl]
  have hgone (q : ConnectionPtr) (hq : q ∈ entries.map pointer) : ¬t.Owner r q := by
    rintro ⟨c, hc, -⟩
    have hnone := ht q
    rw [if_pos hq, ServerApp.belongings, hc] at hnone
    simp at hnone
  have hstays (q : ConnectionPtr) (hq : q ∉ entries.map pointer) : t.Owner r q ↔ s.Owner r q :=
    owner_congr (by rw [ht, if_neg hq])
  rw [calls_departures fun entry hentry => (hentries entry hentry).1]
  by_cases hheld : ∃ entry ∈ entries, r.HeldBy entry.2
  · obtain ⟨entry, hentry, hholds⟩ := hheld
    have hcalls : (entries.filter fun e => r.HeldBy e.2).map (fun _ => r.release) =
        [r.release] := by
      obtain ⟨held, hheld⟩ : ∃ held, entries.filter (fun e => decide (r.HeldBy e.2)) = held :=
        ⟨_, rfl⟩
      have hmem : entry ∈ held := hheld ▸ List.mem_filter.mpr ⟨hentry, by simpa using hholds⟩
      have hsame : ∀ q ∈ held.map pointer, q = pointer entry := by
        intro q hq
        obtain ⟨e, he, rfl⟩ := List.mem_map.mp hq
        obtain ⟨he, hholds'⟩ := List.mem_filter.mp (hheld ▸ he)
        exact hnumbered.unique ((howner e he).mpr (by simpa using hholds'))
          ((howner entry hentry).mpr hholds)
      have honce : (held.map pointer).Nodup := by
        rw [← hheld]
        exact hnodup.sublist (List.filter_sublist.map pointer)
      rw [List.eq_replicate_of_mem hsame, List.nodup_replicate, List.length_map] at honce
      have hlength : held.length = 1 :=
        Nat.le_antisymm honce (List.length_pos_of_mem hmem)
      rw [hheld, List.map_const', hlength]
      rfl
    rw [hcalls]
    refine .released ((howner entry hentry).mpr hholds) fun q hq => ?_
    by_cases hmem : q ∈ entries.map pointer
    · exact hgone q hmem hq
    · have hsame := hnumbered.unique ((hstays q hmem).mp hq) ((howner entry hentry).mpr hholds)
      exact hmem (hsame ▸ List.mem_map_of_mem hentry)
  · have hcalls : (entries.filter fun e => r.HeldBy e.2) = [] := by
      rw [List.filter_eq_nil_iff]
      intro e he hholds
      exact hheld ⟨e, he, by simpa using hholds⟩
    rw [hcalls]
    refine .untouched fun q => ?_
    by_cases hmem : q ∈ entries.map pointer
    · refine iff_of_false (hgone q hmem) fun hq => ?_
      obtain ⟨e, he, rfl⟩ := List.mem_map.mp hmem
      exact hheld ⟨e, he, (howner e he).mp hq⟩
    · exact hstays q hmem

theorem markIfTimedOut_same (i : Input) (c : ClientConnection) :
    (ClientManager.markIfTimedOut i c).node = c.node ∧
      (ClientManager.markIfTimedOut i c).fd = c.fd ∧
      (ClientManager.markIfTimedOut i c).ssl = c.ssl := by
  rcases markIfTimedOut_cases (i := i) c with hsame | ⟨-, -, hclosing⟩
  · rw [hsame]
    exact ⟨rfl, rfl, rfl⟩
  · rw [hclosing]
    exact ⟨rfl, rfl, rfl⟩

theorem handling_of_outcome (hwf : WellFormed s) (hnumbered : Numbered s)
    (h : Outcome i s (.ok s')) : Handling r s s' (r.calls s'.actions) := by
  cases h with
  | idle | console | stopped => exact .untouched fun _ => Iff.rfl
  | @edited p c c' filter actions hp hedit =>
      have hcalls : r.calls actions = [] := calls_unrelated hedit.unrelated
      rw [ServerApp.switchWriteEvent_eq]
      simp only [ServerApp.log_actions, ServerApp.store_actions, ServerApp.beginEvent_actions,
        List.nil_append, hcalls]
      have hderef := deref_edited (i := i) hp hedit.same.1 filter actions
      rw [ServerApp.switchWriteEvent_eq] at hderef
      exact .untouched (owner_store hderef hp hedit.same.2.1 hedit.same.2.2)
  | @dropped p c buffer actions hp hdrop =>
      have hnode := (ServerApp.deref_eq_some.mp hp).2
      have hpointer : pointer (p.fd, c) = p := by rw [pointer, hnode]
      have hcalls : r.calls (ClientManager.release i.now p c.ssl
          (((s.beginEvent i.now).setConsoleInputBuffer buffer).log actions)).actions =
          r.calls ([(p.fd, c)].flatMap fun entry => departure (pointer entry) entry.2.ssl) := by
        rw [actions_release, Resource.calls_append, List.flatMap_singleton, hpointer]
        simp [calls_unrelated hdrop.unrelated]
      rw [hcalls]
      refine handling_of_departures hnumbered (by simp) ?_ fun q => ?_
      · simp only [List.mem_singleton, forall_eq, hpointer]
        exact ⟨(hwf.deref_ok hp).fd_eq, by rw [ServerApp.belongings, hp]; rfl⟩
      · rw [ServerApp.belongings, deref_release (s :=
          ((s.beginEvent i.now).setConsoleInputBuffer buffer).log actions) i.now c.ssl hp]
        simp only [List.map_singleton, hpointer, List.mem_singleton]
        split_ifs <;> rfl
  | @loggedIn p c request rest session reply hp =>
      have hcalls : r.calls [.queueWrite p reply] = [] :=
        calls_unrelated (by simp [Action.Unrelated])
      rw [ServerApp.enableWriteEvent_eq]
      simp only [ServerApp.log_actions, ServerApp.store_actions, ClientManager.addSession,
        ServerApp.beginEvent_actions, List.nil_append, hcalls]
      refine .untouched (owner_store (fun q => ServerApp.deref_store (s := s.beginEvent i.now)
        (d := queueWrite (c.authenticate rest i.now) reply) hp rfl) hp rfl rfl)
  | @reattached p c request rest session hp =>
      exact .untouched (owner_store (fun q => ServerApp.deref_store (s := s.beginEvent i.now)
        (d := c.authenticate rest i.now) hp rfl) hp rfl rfl)
  | @relayed p c stream session hp =>
      rw [calls_unrelated (unrelated_broadcast rfl)]
      refine .untouched fun q => (owner_broadcast _ _ _ q).trans ?_
      exact owner_store (fun q => ServerApp.deref_store (s := s.beginEvent i.now)
        (d := c.withBuffer stream.rxBuffer) hp rfl) hp rfl rfl q
  | announced =>
      rw [calls_unrelated (unrelated_broadcast rfl)]
      exact .untouched fun q => owner_broadcast _ _ _ q
  | turnedAway haway => exact handling_of_turnedAway hwf hnumbered haway
  | @admitted fd hevent hfd hclosed hkevent => exact handling_of_admitted hwf hnumbered hclosed
  | ticked =>
      rw [tick_actions]
      refine handling_of_departures hnumbered ?_ ?_ fun q => ?_
      · exact nodup_pointers ((OrderedMap.sorted _).filter _)
      · intro entry hentry
        have hfind := OrderedMap.mem_entries.mp (List.mem_of_mem_filter hentry)
        simp only [ClientManager.markTimedOutConnections, OrderedMap.find?_mapEntries,
          Option.map_eq_some_iff, ServerApp.beginEvent_connections] at hfind
        obtain ⟨c, hc, hmarked⟩ := hfind
        obtain ⟨hnode, hfd, hssl⟩ := markIfTimedOut_same i c
        have hp : s.deref (pointer entry) = some c := by
          rw [pointer, ← hmarked, hnode]
          exact ServerApp.deref_of_find? hc
        rw [ServerApp.belongings, hp, ← hmarked, hfd, hssl]
        exact ⟨(hwf.deref_ok hp).fd_eq, rfl⟩
      · rw [ServerApp.belongings, deref_tick, ServerApp.deref_beginEvent]
        simp only [mem_timedOut, ServerApp.deref_beginEvent, ServerApp.belongings]
        cases s.deref q with
        | none => simp
        | some c =>
            obtain ⟨-, hfd, hssl⟩ := markIfTimedOut_same i c
            simp only [Option.bind_some, Option.some.injEq, exists_eq_left', Option.map_some]
            split_ifs
            · rfl
            · rw [Option.map_some, hfd, hssl]

/-! ## SSL objects are numbered -/

theorem sslNew_none (hsame : s'.nextSsl = s.nextSsl) (hnone : ∀ ssl, .sslNew ssl ∉ s'.actions) :
    s.nextSsl ≤ s'.nextSsl ∧ ∀ ssl, s'.actions.count (.sslNew ssl) =
      if s.nextSsl ≤ ssl ∧ ssl < s'.nextSsl then 1 else 0 := by
  refine ⟨hsame.ge, fun ssl => ?_⟩
  rw [List.count_eq_zero_of_not_mem (hnone ssl), hsame, if_neg]
  omega

theorem sslNew_not_mem (h : ∀ a ∈ actions, a.Unrelated) (ssl : Nat) : .sslNew ssl ∉ actions :=
  fun hmem => h _ hmem

theorem sslNew_not_mem_departure (object : Option Nat) (ssl : Nat) :
    .sslNew ssl ∉ departure p object := by
  cases object <;> simp [departure]

theorem releaseAll_nextSsl (now : Time) (entries : List (Fd × ClientConnection))
    (s : ServerApp) : (s.releaseAll now entries).nextSsl = s.nextSsl := by
  induction entries generalizing s with
  | nil => rfl
  | cons entry rest ih =>
      rw [ServerApp.releaseAll, List.foldl_cons, ← ServerApp.releaseAll, ih]
      rfl

/-- How many SSL objects an event creates: the numbers of the new ones come next. -/
theorem sslNew_of_outcome (h : Outcome i s (.ok s')) :
    s.nextSsl ≤ s'.nextSsl ∧ ∀ ssl, s'.actions.count (.sslNew ssl) =
      if s.nextSsl ≤ ssl ∧ ssl < s'.nextSsl then 1 else 0 := by
  cases h with
  | idle | console | stopped | reattached => exact sslNew_none rfl (by simp)
  | edited _ hedit =>
      rw [ServerApp.switchWriteEvent_eq]
      exact sslNew_none rfl (by simpa using sslNew_not_mem hedit.unrelated)
  | @dropped p c buffer actions hp hdrop =>
      refine sslNew_none rfl fun ssl => ?_
      rw [actions_release, List.mem_append, not_or]
      exact ⟨by simpa using sslNew_not_mem hdrop.unrelated ssl, sslNew_not_mem_departure _ ssl⟩
  | loggedIn =>
      rw [ServerApp.enableWriteEvent_eq]
      exact sslNew_none rfl (by simp [ClientManager.addSession])
  | relayed | announced =>
      refine sslNew_none ?_ (sslNew_not_mem (unrelated_broadcast rfl))
      rw [ServerApp.broadcastAndEnable_eq]
      rfl
  | turnedAway haway =>
      rcases haway.exits with ⟨hactions, hsame⟩ | ⟨fd, -, ⟨hactions, hsame⟩ | ⟨hactions, hnext⟩⟩
      · exact sslNew_none hsame (by simp [hactions])
      · exact sslNew_none hsame (by simp [hactions])
      · refine ⟨by omega, fun ssl => ?_⟩
        simp only [hactions, hnext, List.count_cons, List.count_nil, beq_iff_eq,
          Action.sslNew.injEq, reduceCtorEq, if_false]
        split_ifs <;> omega
  | @admitted fd =>
      refine ⟨Nat.le_succ _, fun ssl => ?_⟩
      simp only [ServerApp.addConnection, ServerApp.beginEvent_actions, List.nil_append,
        ServerApp.beginEvent_nextSsl, List.count_cons, List.count_nil, beq_iff_eq,
        Action.sslNew.injEq, reduceCtorEq, if_false]
      split_ifs <;> omega
  | ticked =>
      refine sslNew_none ?_ fun ssl => ?_
      · rw [tick_frame]
        exact releaseAll_nextSsl _ _ _
      · rw [tick_actions]
        intro hmem
        obtain ⟨entry, _, hmem⟩ := List.mem_flatMap.mp hmem
        exact sslNew_not_mem_departure _ ssl hmem

theorem Numbered.step (hwf : WellFormed s) (hnumbered : Numbered s) (h : Outcome i s (.ok s')) :
    Numbered s' := by
  obtain ⟨hle, hcount⟩ := sslNew_of_outcome h
  constructor
  · intro r p q hp hq
    have hhandling := handling_of_outcome (r := r) hwf hnumbered h
    generalize r.calls s'.actions = made at hhandling
    cases hhandling with
    | untouched hsame => exact hnumbered.unique ((hsame p).mp hp) ((hsame q).mp hq)
    | backedOut _ hgone | released _ hgone => exact absurd hp (hgone p)
    | taken _ howner => exact ((howner p).mp hp).trans ((howner q).mp hq).symm
  · intro p ssl hp
    have hhandling := handling_of_outcome (r := .sslObject ssl) hwf hnumbered h
    have hmade : ∀ a ∈ (Resource.sslObject ssl).calls s'.actions, a ∈ s'.actions :=
      fun a ha => List.mem_of_mem_filter ha
    generalize (Resource.sslObject ssl).calls s'.actions = made at hhandling hmade
    cases hhandling with
    | untouched hsame => exact (hnumbered.below ((hsame p).mp hp)).trans_le hle
    | backedOut _ hgone | released _ hgone => exact absurd hp (hgone p)
    | taken =>
        have hmem : Action.sslNew ssl ∈ s'.actions := hmade _ List.mem_cons_self
        have hpos := List.count_pos_iff.mpr hmem
        by_contra hlt
        rw [hcount, if_neg fun hnew => hlt hnew.2] at hpos
        exact absurd hpos (lt_irrefl 0)

end

variable {now : Time} {history : List (Transition ServerApp Input)} {s : ServerApp}

theorem deeds_append (history : List (Transition ServerApp Input))
    (t : Transition ServerApp Input) :
    deeds (history ++ [t]) = deeds history ++ t.post.actions := by
  simp [deeds]

/-- In every reachable state each descriptor that `accept` has returned, and each SSL
object that was created for one, belongs to exactly one entry of `connections_` or has
been released: the calls that obtain and release it alternate, and an SSL object is
created once. -/
theorem resources_owned_or_released (hrun : ServerRun now history s) :
    (∀ r, Custody r (deeds history) s) ∧ ∀ ssl, (deeds history).count (.sslNew ssl) ≤ 1 := by
  have hinvariant : Numbered s ∧ (∀ r, Custody r (deeds history) s) ∧
      ∀ ssl, (deeds history).count (.sslNew ssl) = if ssl < s.nextSsl then 1 else 0 := by
    refine hrun.invariant_of (fun _ => True)
      (fun history s => Numbered s ∧ (∀ r, Custody r (deeds history) s) ∧
        ∀ ssl, (deeds history).count (.sslNew ssl) = if ssl < s.nextSsl then 1 else 0)
      ?_ ?_ fun _ _ => trivial
    · have hnone (r : Resource) (p : ConnectionPtr) : ¬(initialState now).Owner r p := by
        simp [ServerApp.Owner, initialState, ServerApp.deref]
      exact ⟨⟨fun hp => absurd hp (hnone _ _), fun hp => absurd hp (hnone _ _)⟩,
        fun r => .released .nil (hnone r), fun ssl => by simp [deeds, initialState]⟩
    · rintro history s s' i hrun ⟨hnumbered, hcustody, hcount⟩ hstep -
      have hwf := wellFormed_of_run hrun
      have houtcome := outcome_of_run hrun hstep
      obtain ⟨hle, hnew⟩ := sslNew_of_outcome houtcome
      refine ⟨hnumbered.step hwf houtcome, fun r => ?_, fun ssl => ?_⟩
      · rw [deeds_append]
        exact (hcustody r).handled (handling_of_outcome hwf hnumbered houtcome)
      · rw [deeds_append, List.count_append, hcount, hnew]
        split_ifs <;> omega
  refine ⟨hinvariant.2.1, fun ssl => ?_⟩
  rw [hinvariant.2.2]
  split_ifs <;> omega

def comeAndGo : List Input :=
  [accepting 5, { Input.sample with event := .accept (.accepted 6 true true false) }, accepting 6,
    { Input.sample with event := .read 5, sslRead := [.failed .ssl] }]

theorem resources_owned_or_released_comeAndGo : ∃ history s, ServerRun 0 history s ∧
    s.connections.entries.length = 1 ∧
      (∀ r, Custody r (deeds history) s) ∧ ∀ ssl, (deeds history).count (.sslNew ssl) ≤ 1 := by
  obtain ⟨history, s, hrun, h⟩ := Run.exists_of_execute step comeAndGo (initialState 0)
    (fun _ s => s.connections.entries.length = 1) (by decide +kernel)
  exact ⟨history, s, hrun, by simpa using h, resources_owned_or_released hrun⟩

end TChat.Server
