import TChat.Client.Losses
import TChat.WriteQueues
/-!
# What a client sends in the chat

In the chat a client queues pings, and the lines that it shows as the user's own.  What it
hands to TLS is the beginning of that, behind its login; what is typed after the connection
has gone is shown and sent nowhere.
-/

namespace TChat.Client

open TChat.Common TChat.Lib
open TChat.Server (maxInputLength)

/-- A packet that a client queues in the chat. -/
inductive Post
  | ping
  | line (text : Bytes) (fits : text.length ≤ maxInputLength)

namespace Post

def type : Post → PacketType
  | ping => .ping
  | line _ _ => .message

def payload : Post → Bytes
  | ping => []
  | line text _ => text

def packet (post : Post) : Bytes := createPacketStream post.type post.payload

def text? : Post → Option Bytes
  | ping => none
  | line text _ => some text

end Post

def written (actions : List Action) : List SslWriteCall :=
  actions.filterMap fun
    | .sslWrite call => some call
    | _ => none

/-- From `s` to `s'` nothing has been queued or written. -/
structure Unsent (s s' : ClientApp) : Prop where
  written : written s'.actions = written s.actions
  console : s'.consoleInputBuffer = s.consoleInputBuffer
  outgoing : s'.connection.ssl ≠ none → s.connection.ssl ≠ none ∧ ∃ waiting,
    s'.connection.toOutgoing = { s.connection.toOutgoing with writeWaitingForRead := waiting }

/-- From `s` to `s'` the packets `posts` are queued and the calls `calls` are made. -/
structure Posts (s s' : ClientApp) (posts : List Post) (calls : List SslWriteCall) : Prop where
  written : written s'.actions = written s.actions ++ calls
  shown : ownMessages s'.actions = ownMessages s.actions ++ posts.filterMap Post.text?
  closed : s.connection.ssl = none → s'.connection.ssl = none ∧ calls = []
  transmitted : s.connection.ssl ≠ none → ∀ {queued made},
    Transmission storeOffset queued made s.connection.toOutgoing →
    ∃ out, Transmission storeOffset (queued ++ posts.map Post.packet) (made ++ calls) out ∧
      (s'.connection.ssl ≠ none → s'.connection.toOutgoing = out)

/-- A chat that began in `s₀`, with `queued` and `made` behind it, has queued the packets
`posts` and made the calls `calls`; lines typed without a connection are shown as well. -/
structure Posted (s₀ : ClientApp) (queued : List Bytes) (made : List SslWriteCall)
    (s : ClientApp) (posts : List Post) (calls : List SslWriteCall) : Prop where
  written : written s.actions = written s₀.actions ++ calls
  shown : ∃ lost, ownMessages s.actions =
    ownMessages s₀.actions ++ (posts.filterMap Post.text? ++ lost) ∧
      (s.connection.ssl ≠ none → lost = [])
  transmitted : ∃ out,
    Transmission storeOffset (queued ++ posts.map Post.packet) (made ++ calls) out ∧
      (s.connection.ssl ≠ none → s.connection.toOutgoing = out)

section

variable {i : Input} {s s' : ClientApp}

@[simp] theorem written_append (a b : List Action) : written (a ++ b) = written a ++ written b :=
  List.filterMap_append

@[simp] theorem written_sslWrites (calls : List SslWriteCall) :
    written (calls.map .sslWrite) = calls := by
  simp [written, List.filterMap_map]

namespace Unsent

theorem refl (s : ClientApp) : Unsent s s := ⟨rfl, rfl, fun h => ⟨h, _, rfl⟩⟩

theorem trans {t : ClientApp} (h : Unsent s t) (h' : Unsent t s') : Unsent s s' where
  written := h'.written.trans h.written
  console := h'.console.trans h.console
  outgoing hopen := by
    obtain ⟨hopen', waiting, hout⟩ := h'.outgoing hopen
    obtain ⟨hopen'', _, hout'⟩ := h.outgoing hopen'
    refine ⟨hopen'', waiting, ?_⟩
    rw [hout, hout']

theorem withConnection (h : Unsent s s') {c : ClientConnection}
    (hc : c.ssl ≠ none → s'.connection.ssl ≠ none ∧ ∃ waiting,
      c.toOutgoing = { s'.connection.toOutgoing with writeWaitingForRead := waiting }) :
    Unsent s (s'.withConnection c) :=
  h.trans ⟨rfl, rfl, hc⟩

theorem log (h : Unsent s s') {actions : List Action} (hnone : Client.written actions = []) :
    Unsent s (s'.log actions) :=
  h.trans ⟨by simp [hnone], rfl, fun hopen => ⟨hopen, _, rfl⟩⟩

theorem print (h : Unsent s s') (message : Bytes) (kind : PrintKind) (sender : Bytes) :
    Unsent s (s'.printMessage message kind sender) :=
  h.log rfl

theorem stop (h : Unsent s s') : Unsent s s'.stop :=
  h.trans ⟨rfl, rfl, fun hopen => ⟨hopen, _, rfl⟩⟩

theorem disconnect (h : Unsent s s') : Unsent s s'.disconnect := by
  have hlogged : Unsent s (s'.log [.disconnect]) := h.log rfl
  apply hlogged.trans
  unfold ClientApp.disconnect
  dsimp only
  split_ifs with hclosed
  · exact ⟨rfl, rfl, fun hopen => absurd hclosed.2 hopen⟩
  · exact ⟨rfl, rfl, fun hopen => absurd rfl hopen⟩

theorem enableWriteEvent (h : Unsent s s') (i : Input) : Unsent s (s'.enableWriteEvent i) := by
  apply h.trans
  unfold ClientApp.enableWriteEvent
  split_ifs <;> exact ⟨rfl, rfl, fun hopen => ⟨hopen, _, rfl⟩⟩

theorem disableWriteEvent (h : Unsent s s') (i : Input) :
    Unsent s (s'.disableWriteEvent i) := by
  apply h.trans
  unfold ClientApp.disableWriteEvent
  split_ifs <;> exact ⟨rfl, rfl, fun hopen => ⟨hopen, _, rfl⟩⟩

theorem handleProcessStreamResult (h : Unsent s s') (now : Int) (result : ProcessStreamResult) :
    Unsent s (s'.handleProcessStreamResult now result).2 := by
  have hlogged : Unsent s (s'.log [.handled result]) := h.log rfl
  unfold ClientApp.handleProcessStreamResult
  cases result.status with
  | bufferEmpty | incompletePacket => exact hlogged
  | invalidProtocolError => exact (hlogged.print _ _ _).disconnect
  | receivedPong => exact hlogged.withConnection fun hopen => ⟨hopen, _, rfl⟩
  | printMessage =>
      dsimp only
      split_ifs
      · exact hlogged.print _ _ _
      · exact hlogged.print _ _ _
  | acknowledgement | errorAck => exact hlogged.print _ _ _

theorem processReceivedLoop {fuel : Nat} {now : Int} {t : ClientApp} (h : Unsent s s')
    (hreturns : ClientApp.processReceivedLoop now fuel s' = some t) : Unsent s t := by
  induction fuel generalizing s' with
  | zero => simp [ClientApp.processReceivedLoop] at hreturns
  | succ fuel ih =>
      have hhandled := (h.withConnection (c := { s'.connection with
        rxBuffer := (processDataStream s'.connection.rxBuffer).2 })
          fun hopen => ⟨hopen, _, rfl⟩).handleProcessStreamResult now
            (processDataStream s'.connection.rxBuffer).1
      unfold ClientApp.processReceivedLoop at hreturns
      dsimp only at hreturns
      split_ifs at hreturns
      · exact Option.some.inj hreturns ▸ hhandled
      · exact Option.some.inj hreturns ▸ hhandled
      · exact ih hhandled hreturns

theorem handleFlushResult (h : Unsent s s') (i : Input) (result : FlushResult) :
    Unsent s (s'.handleFlushResult i result) := by
  unfold ClientApp.handleFlushResult
  cases result with
  | queueEmpty =>
      dsimp only
      split_ifs
      · exact h.disconnect
      · exact h.disableWriteEvent i
      · exact h
  | readWait =>
      apply Unsent.disableWriteEvent
      exact h.withConnection fun hopen => ⟨hopen, true, rfl⟩
  | writeWait => exact h.enableWriteEvent i
  | fatalError => exact h.disconnect.stop

theorem handleReadResult (h : Unsent s s') (i : Input) (result : ReadResult) :
    Unsent s (s'.handleReadResult i result) := by
  unfold ClientApp.handleReadResult
  cases result with
  | dataReceived =>
      obtain ⟨fuel, hreturns⟩ := ClientApp.processReceivedData_returns s' i.now
      exact h.processReceivedLoop hreturns
  | fatalError => exact (h.print _ _ _).disconnect
  | wantRead | ignored => exact h
  | wantWrite =>
      apply Unsent.enableWriteEvent
      exact h.withConnection fun hopen => ⟨hopen, s'.connection.writeWaitingForRead, rfl⟩
  | connectionClosed => exact (h.print _ _ _).disconnect.stop

theorem read (h : Unsent s s') {t : ClientApp} (hread : s'.read i = .ok t) : Unsent s t := by
  unfold ClientApp.read at hread
  cases hcall : handleRead s'.connection i.sslRead with
  | none => simp [hcall] at hread
  | some outcome =>
      obtain ⟨result, c, unused⟩ := outcome
      simp only [hcall, Except.ok.injEq] at hread
      subst hread
      refine (h.withConnection fun hopen => ?_).handleReadResult i result
      obtain ⟨-, hlive, bytes, rfl⟩ | ⟨-, rfl | rfl⟩ | ⟨-, rfl⟩ | ⟨-, rfl⟩ :=
        handleRead_cases hcall
      all_goals exact ⟨hopen, _, rfl⟩

theorem posts (h : Unsent s s') (hmute : Mute s s') : Posts s s' [] [] where
  written := by simp [h.written]
  shown := by simp [hmute.shown]
  closed hclosed := by
    refine ⟨?_, rfl⟩
    by_contra hopen
    exact (h.outgoing hopen).1 hclosed
  transmitted _ {queued made} hsent := by
    by_cases hopen : s'.connection.ssl = none
    · exact ⟨_, by simpa using hsent, fun hopen' => absurd hopen hopen'⟩
    · obtain ⟨-, waiting, hout⟩ := h.outgoing hopen
      rw [List.map_nil, List.append_nil, List.append_nil]
      exact ⟨_, hsent.flagged, fun _ => hout⟩

end Unsent

/-! ## One event -/

theorem Posts.unsent {t : ClientApp} {posts : List Post} {calls : List SslWriteCall}
    (h : Posts s t posts calls) (hunsent : Unsent t s') (hmute : Mute t s') :
    Posts s s' posts calls where
  written := hunsent.written.trans h.written
  shown := hmute.shown.trans h.shown
  closed hclosed := by
    obtain ⟨hclosed', hcalls⟩ := h.closed hclosed
    refine ⟨?_, hcalls⟩
    by_contra hopen
    exact (hunsent.outgoing hopen).1 hclosed'
  transmitted hopen {queued made} hsent := by
    obtain ⟨out, hout, hsame⟩ := h.transmitted hopen hsent
    by_cases hopen' : s'.connection.ssl = none
    · exact ⟨out, hout, fun hne => absurd hopen' hne⟩
    · obtain ⟨ht, waiting, hflagged⟩ := hunsent.outgoing hopen'
      rw [hsame ht] at hflagged
      exact ⟨_, hout.flagged, fun _ => hflagged⟩

theorem posts_of_queued {post : Post} (hwritten : written s'.actions = written s.actions)
    (hshown : ownMessages s'.actions = ownMessages s.actions ++ post.text?.toList)
    (hconnection : s'.connection = queueWrite s.connection post.packet) :
    Posts s s' [post] [] where
  written := by rw [hwritten, List.append_nil]
  shown := by
    rw [hshown]
    cases post <;> rfl
  closed hclosed := by
    rw [hconnection]
    exact ⟨hclosed, rfl⟩
  transmitted _ {queued made} hsent := by
    rw [List.map_singleton, List.append_nil]
    refine ⟨_, hsent.queued, fun _ => ?_⟩
    rw [hconnection]
    rfl

theorem queueAndEnable_log (s : ClientApp) (i : Input) (packet : Bytes) :
    (s.queueAndEnable i packet).actions = s.actions ∧
      (s.queueAndEnable i packet).consoleInputBuffer = s.consoleInputBuffer := by
  unfold ClientApp.queueAndEnable ClientApp.enableWriteEvent
  dsimp only
  split_ifs <;> exact ⟨rfl, rfl⟩

theorem flush_posts (hflush : s.flush i = .ok s') :
    s'.consoleInputBuffer = s.consoleInputBuffer ∧ ∃ calls, Posts s s' [] calls := by
  unfold ClientApp.flush at hflush
  cases hcall : flushWrite s.connection i.sslWrite with
  | none => simp [hcall] at hflush
  | some outcome =>
      obtain ⟨result, c, calls⟩ := outcome
      simp only [hcall, Except.ok.injEq] at hflush
      subst hflush
      have hmade : Posts s ((s.withConnection c).log (calls.map .sslWrite)) [] calls := by
        refine ⟨by simp, by simp, fun hclosed => ?_, fun hopen queued made hsent => ?_⟩
        · simp only [flushWrite, hclosed, Option.some.injEq, Prod.mk.injEq] at hcall
          obtain ⟨-, rfl, rfl⟩ := hcall
          exact ⟨hclosed, rfl⟩
        · obtain ⟨flush, hloop, -, rfl, rfl⟩ := client_flushWrite hopen hcall
          exact ⟨flush.outgoing, by simpa using hsent.flushed hloop, fun _ => rfl⟩
      have hunsent := (Unsent.refl ((s.withConnection c).log
        (calls.map .sslWrite))).handleFlushResult i result
      exact ⟨hunsent.console, calls,
        hmade.unsent hunsent ((Mute.refl _).handleFlushResult i result)⟩

theorem classifyLine_message {line text : Bytes}
    (h : classifyLine line = some ⟨.message, text⟩) : text = line := by
  unfold classifyLine at h
  grind

theorem length_readConsoleInput {keys : List Int} {inputBuffer inputBuffer' : Bytes}
    {result : ConsoleInputResult}
    (h : readConsoleInput keys inputBuffer = some (result, inputBuffer'))
    (hlength : inputBuffer.length ≤ maxInputLength) :
    inputBuffer'.length ≤ maxInputLength ∧
      (result.status = .message → result.buffer.length ≤ maxInputLength) := by
  induction keys generalizing inputBuffer with
  | nil =>
      simp only [readConsoleInput, Option.some.injEq, Prod.mk.injEq] at h
      obtain ⟨rfl, rfl⟩ := h
      exact ⟨hlength, by simp⟩
  | cons ch keys ih =>
      unfold readConsoleInput at h
      split_ifs at h with herr henter hempty hback hprint hroom
      · simp only [Option.some.injEq, Prod.mk.injEq] at h
        obtain ⟨rfl, rfl⟩ := h
        exact ⟨hlength, by simp⟩
      · exact ih h (Nat.zero_le _)
      · obtain ⟨classified, hline, heq⟩ := Option.map_eq_some_iff.mp h
        simp only [Prod.mk.injEq] at heq
        obtain ⟨rfl, rfl⟩ := heq
        refine ⟨Nat.zero_le _, fun hmessage => ?_⟩
        obtain ⟨status, text⟩ := classified
        dsimp only at hmessage
        subst hmessage
        rw [classifyLine_message hline]
        exact hlength
      · apply ih h
        rw [List.length_dropLast]
        omega
      · apply ih h
        rw [List.length_append, List.length_singleton]
        omega
      · exact ih h hlength
      · exact ih h hlength

theorem step_posts (hlength : s.consoleInputBuffer.length ≤ maxInputLength)
    (hstep : ClientApp.step i s = .ok s') :
    s'.consoleInputBuffer.length ≤ maxInputLength ∧ ∃ posts calls, Posts s s' posts calls := by
  have hquiet (h : Unsent s s') (hmute : Mute s s') :
      s'.consoleInputBuffer.length ≤ maxInputLength ∧
        ∃ posts calls, Posts s s' posts calls := by
    refine ⟨?_, [], [], h.posts hmute⟩
    rw [h.console]
    exact hlength
  cases ClientApp.dispatched_of_step hstep with
  | timer _ hticked =>
      rw [ClientApp.handleTimerEvent] at hticked
      split_ifs at hticked
      · subst hticked
        exact hquiet ((Unsent.refl s).print _ _ _).disconnect.stop
          ((Mute.refl s).print .error (by decide) _ _).disconnect.stop
      · subst hticked
        obtain ⟨hactions, hconsole⟩ := queueAndEnable_log s i (createPacketStream .ping [])
        refine ⟨hconsole ▸ hlength, [.ping], [], posts_of_queued ?_ ?_ ?_⟩
        · rw [hactions]
        · rw [hactions]
          exact (List.append_nil _).symm
        · exact ClientApp.queueAndEnable_connection i s _
  | console _ hwritten =>
      unfold ClientApp.consoleWriteEvent at hwritten
      split at hwritten
      · simp at hwritten
      · rename_i result inputBuffer hconsole
        simp only [Except.ok.injEq] at hwritten
        subst hwritten
        obtain ⟨hbuffer, hline⟩ := length_readConsoleInput hconsole hlength
        let typed : ClientApp := { s with consoleInputBuffer := inputBuffer }
        have hread (t : ClientApp) (h : Unsent typed t) (hmute : Mute typed t) :
            t.consoleInputBuffer.length ≤ maxInputLength ∧
              ∃ posts calls, Posts s t posts calls := by
          have hposts := h.posts hmute
          exact ⟨h.console ▸ hbuffer, [], [],
            ⟨hposts.written, hposts.shown, hposts.closed, hposts.transmitted⟩⟩
        unfold ClientApp.handleConsoleInputResult
        cases hstatus : result.status with
        | message =>
            obtain ⟨hactions, hconsole'⟩ :=
              queueAndEnable_log typed i (createPacketStream .message result.buffer)
            refine ⟨?_, [.line result.buffer (hline hstatus)], [], posts_of_queued ?_ ?_ ?_⟩
            · exact hconsole' ▸ hbuffer
            · simp [ClientApp.printMessage, typed, hactions, written]
            · simp [ClientApp.printMessage, typed, hactions, ownMessages, Post.text?]
            · exact ClientApp.queueAndEnable_connection i typed _
        | quit =>
            exact hread _ ((Unsent.refl typed).print _ _ _).stop
              ((Mute.refl typed).print .system (by decide) _ _).stop
        | invalidCommand =>
            exact hread _ ((Unsent.refl typed).print _ _ _)
              ((Mute.refl typed).print .error (by decide) _ _)
        | noInput => exact hread _ (.refl typed) (.refl typed)
  | waits _ hsame =>
      subst hsame
      exact hquiet (.refl _) (.refl _)
  | flushes _ _ hflush =>
      obtain ⟨hconsole, calls, hposts⟩ := flush_posts hflush
      exact ⟨hconsole ▸ hlength, [], calls, hposts.written, hposts.shown, hposts.closed,
        fun hopen _ _ hsent => hposts.transmitted hopen hsent.flagged⟩
  | reads _ hread =>
      apply hquiet _ (((Mute.refl s).withConnection _).read hread)
      apply Unsent.read _ hread
      exact (Unsent.refl s).withConnection
        fun hopen => ⟨hopen, s.connection.writeWaitingForRead, rfl⟩

end

/-! ## The login -/

theorem loginClient_sent {c c' : ClientConnection} {username password : Bytes}
    {writes : List SslWrite} {reads : List SslRead} {result : LoginResult}
    {calls : List SslWriteCall} (hqueue : c.txQueue = []) (hoffset : c.txOffset = 0)
    (h : loginClient username password writes reads c = some (result, c', calls))
    (hsuccess : result.status = .success) :
    Transmission storeOffset [createPacketStream .login (credentials username password)] calls
      c'.toOutgoing := by
  unfold loginClient at h
  split_ifs at h with hclosed
  · simp only [Option.some.injEq, Prod.mk.injEq] at h
    simp [← h.1, LoginResult.of] at hsuccess
  · rw [not_or] at hclosed
    dsimp only at h
    cases hflush : flushWrite (queueWrite c (createPacketStream .login
      (credentials username password))) writes with
    | none => simp [hflush] at h
    | some outcome =>
        obtain ⟨status, c₁, calls₁⟩ := outcome
        simp only [hflush] at h
        split_ifs at h with hunsent
        · simp only [Option.some.injEq, Prod.mk.injEq] at h
          simp [← h.1, LoginResult.of] at hsuccess
        · obtain ⟨⟨result', c₂⟩, hloop, heq⟩ := Option.map_eq_some_iff.mp h
          simp only [Prod.mk.injEq] at heq
          obtain ⟨rfl, rfl, rfl⟩ := heq
          have hopen : (queueWrite c (createPacketStream .login
              (credentials username password))).ssl ≠ none := hclosed.1
          obtain ⟨flush, hcall, -, rfl, rfl⟩ := client_flushWrite hopen hflush
          have hfresh : Transmission storeOffset [] [] c.toOutgoing := by
            have hout : c.toOutgoing = ⟨[], 0, c.writeWaitingForRead⟩ := by
              rw [← hqueue, ← hoffset]
            rw [hout]
            exact .fresh
          rw [(loginLoop_success hloop hsuccess).1]
          exact hfresh.queued.flushed hcall

/-! ## The chat -/

section

variable {s₀ s s' : ClientApp} {queued : List Bytes} {made : List SslWriteCall}
  {posts more : List Post} {calls new : List SslWriteCall}

theorem Posted.start (hsent : Transmission storeOffset queued made s₀.connection.toOutgoing) :
    Posted s₀ queued made s₀ [] [] where
  written := (List.append_nil _).symm
  shown := ⟨[], by simp, fun _ => rfl⟩
  transmitted := ⟨_, by simpa using hsent, fun _ => rfl⟩

theorem Posted.next (h : Posted s₀ queued made s posts calls) (hposts : Posts s s' more new) :
    ∃ posts calls, Posted s₀ queued made s' posts calls := by
  obtain ⟨lost, hshown, hlost⟩ := h.shown
  obtain ⟨out, hsent, hout⟩ := h.transmitted
  by_cases hopen : s.connection.ssl = none
  · obtain ⟨hclosed, rfl⟩ := hposts.closed hopen
    refine ⟨posts, calls, ?_, ⟨lost ++ more.filterMap Post.text?, ?_, ?_⟩, out, hsent, ?_⟩
    · rw [hposts.written, h.written, List.append_nil]
    · rw [hposts.shown, hshown]
      simp only [List.append_assoc]
    · exact fun hopen' => absurd hclosed hopen'
    · exact fun hopen' => absurd hclosed hopen'
  · obtain rfl := hlost hopen
    obtain rfl := hout hopen
    obtain ⟨out', hsent', hout'⟩ := hposts.transmitted hopen hsent
    refine ⟨posts ++ more, calls ++ new, ?_, ⟨[], ?_, fun _ => rfl⟩, out', ?_, hout'⟩
    · rw [hposts.written, h.written, List.append_assoc]
    · rw [hposts.shown, hshown]
      simp only [List.append_nil, List.filterMap_append, List.append_assoc]
    · simpa using hsent'

theorem posted_of_run {history : List (Transition ClientApp Input)}
    (hsent : Transmission storeOffset queued made s₀.connection.toOutgoing)
    (hblank : s₀.consoleInputBuffer = []) (hrun : Run ClientApp.step s₀ history s) :
    ∃ posts calls, Posted s₀ queued made s posts calls := by
  have hinvariant : s.consoleInputBuffer.length ≤ maxInputLength ∧
      ∃ posts calls, Posted s₀ queued made s posts calls := by
    refine hrun.invariant_of (fun _ => True)
      (fun _ s => s.consoleInputBuffer.length ≤ maxInputLength ∧
        ∃ posts calls, Posted s₀ queued made s posts calls) ?_ ?_ fun _ _ => trivial
    · rw [hblank]
      exact ⟨Nat.zero_le _, [], [], .start hsent⟩
    · intro _ s s' i _ hbefore hstep _
      obtain ⟨hlength, posts, calls, hposted⟩ := hbefore
      obtain ⟨hlength', more, new, hposts⟩ := step_posts hlength hstep
      exact ⟨hlength', hposted.next hposts⟩
  exact hinvariant.2

/-- What has been handed to TLS is the beginning of what has been queued. -/
theorem Posted.accepted_prefix (h : Posted s₀ queued made s posts calls) :
    accepted (made ++ calls) <+: (queued ++ posts.map Post.packet).flatten := by
  obtain ⟨out, hsent, -⟩ := h.transmitted
  exact ⟨out.unsent, (hsent.transmitted fun n hn => storeOffset_of_le hn).conserved⟩

end

end TChat.Client
