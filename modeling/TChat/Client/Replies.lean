import TChat.Client.Authorization
import TChat.Client.Receiving
/-!
# The reply to a login or a registration

The loops of `login_client` and `register_client` while the reply of the server
arrives in pieces.
-/

namespace TChat.Client

open TChat.Common

/-- The bytes that arrive before a call of `SSL_read` fails otherwise than by a signal. -/
def arrived : List SslRead → Bytes
  | .received bytes :: reads => bytes ++ arrived reads
  | .failed (.syscall .eintr) :: reads => arrived reads
  | _ => []

section

variable {username reply piece : Bytes} {fuel : Nat} {reads : List SslRead}
  {c : ClientConnection} {result : ProcessStreamResult}

theorem handleRead_interrupted (hlive : c.Live) (reads : List SslRead) :
    handleRead c (.failed (.syscall .eintr) :: reads) = handleRead c reads := by
  rw [handleRead, if_neg (not_lt.mpr hlive.fd), if_neg hlive.ssl, if_neg hlive.status, handleRead,
    if_neg (not_lt.mpr hlive.fd), if_neg hlive.ssl, if_neg hlive.status, readLoop]

theorem arrived_received (piece : Bytes) (reads : List SslRead) :
    arrived (.received piece :: reads) = piece ++ arrived reads := rfl

theorem processDataStream_incomplete {buffer : Bytes} (hnonempty : buffer ≠ [])
    (h : (processDataStream buffer).1.waits = true) :
    processDataStream buffer = (.of .incompletePacket, buffer) := by
  unfold processDataStream at h ⊢
  dsimp only at h ⊢
  rw [if_neg hnonempty] at h ⊢
  split_ifs at h ⊢
  · rfl
  · exact absurd h Bool.false_ne_true
  · exact absurd h Bool.false_ne_true
  · rfl
  · simp [readPayload_waits] at h

theorem loginLoop_waits (hlive : c.Live) (hpiece : Deliverable piece)
    (h : (processDataStream (c.rxBuffer ++ piece)).1.waits = true) :
    loginLoop username (fuel + 1) (.received piece :: reads) c =
      loginLoop username fuel reads
        { c with rxBuffer := c.rxBuffer ++ piece, readWaitingForWrite := false } := by
  have hmore := processDataStream_incomplete (by simp [hpiece.1]) h
  simp [loginLoop, handleRead_received hlive hpiece, hmore, ProcessStreamResult.of]

theorem loginLoop_decides (hlive : c.Live) (hpiece : Deliverable piece)
    (h : (processDataStream (c.rxBuffer ++ piece)).1.waits = false) :
    ∃ c', loginLoop username (fuel + 1) (.received piece :: reads) c =
      some (judgeReply username (processDataStream (c.rxBuffer ++ piece)).1, c') := by
  have hstatus : (processDataStream (c.rxBuffer ++ piece)).1.status ≠ .incompletePacket := by
    intro hincomplete
    simp [ProcessStreamResult.waits, hincomplete] at h
  simp [loginLoop, handleRead_received hlive hpiece, hstatus]

theorem loginLoop_interrupted (hlive : c.Live) :
    loginLoop username (fuel + 1) (.failed (.syscall .eintr) :: reads) c =
      loginLoop username (fuel + 1) reads c := by
  rw [loginLoop, handleRead_interrupted hlive, loginLoop]

/-- A reply that arrives in full, cut in any way, is judged. -/
theorem loginLoop_reply (username : Bytes)
    (hreply : ∀ more, (processDataStream (reply ++ more)).1 = result)
    (hresult : result.waits = false) (hlive : c.Live)
    (hbuffer : (processDataStream c.rxBuffer).1.waits = true)
    (hreads : ∀ piece, .received piece ∈ reads → Deliverable piece)
    (harrived : reply <+: c.rxBuffer ++ arrived reads) (hfuel : reads.length ≤ fuel) :
    ∃ c', loginLoop username (fuel + 1) reads c = some (judgeReply username result, c') := by
  induction reads using arrived.induct generalizing c fuel with
  | case1 piece reads ih =>
      have hpiece := hreads piece List.mem_cons_self
      rw [arrived_received, ← List.append_assoc] at harrived
      cases hwaits : (processDataStream (c.rxBuffer ++ piece)).1.waits with
      | true =>
          obtain ⟨fuel, rfl⟩ := Nat.exists_eq_add_of_lt (Nat.zero_lt_of_lt hfuel)
          rw [Nat.zero_add] at hfuel ⊢
          rw [loginLoop_waits hlive hpiece hwaits]
          exact ih ⟨hlive.fd, hlive.ssl, hlive.status⟩ hwaits
            (fun piece hmem => hreads piece (List.mem_cons_of_mem _ hmem)) harrived
            (Nat.le_of_succ_le_succ hfuel)
      | false =>
          -- what has been decided is what the whole reply says
          obtain ⟨more, hmore⟩ := harrived
          have hsame := (processDataStream_append hwaits (arrived reads)).1
          rw [← hmore, hreply] at hsame
          rw [hsame]
          exact loginLoop_decides hlive hpiece hwaits
  | case2 reads ih =>
      rw [loginLoop_interrupted hlive]
      exact ih hlive hbuffer (fun piece hmem => hreads piece (List.mem_cons_of_mem _ hmem))
        harrived ((Nat.le_succ _).trans hfuel)
  | case3 reads hreceived hinterrupted =>
      -- the reply would be in the buffer
      obtain ⟨more, hmore⟩ := harrived
      rw [arrived.eq_3 reads hreceived hinterrupted, List.append_nil] at hmore
      rw [← hmore, hreply, hresult] at hbuffer
      simp at hbuffer

theorem read_reply {type : PacketType} {payload : Bytes}
    (h : payload.length ≤ maxMessagePayloadSize) (more : Bytes) :
    (processDataStream (createPacketStream type payload ++ more)).1 =
      readPayload (some type) payload := by
  have hlength : payload.length < 2 ^ 32 := by
    unfold maxMessagePayloadSize at h
    omega
  rw [processDataStream_isPacket (isPacket_createPacketStream type hlength) h]

theorem judgeReply_welcome {token : Bytes} (h : token ≠ []) :
    judgeReply username ⟨.acknowledgement, literal "OK|" ++ token, []⟩ =
      ⟨.success, username, token⟩ := by
  have hpositive := List.length_pos_iff.mpr h
  have hshape : literal "OK|" ++ token = 0x4F :: 0x4B :: 0x7C :: token := by simp [literal]
  have hno : (0x4F :: 0x4B :: 0x7C :: token : Bytes) ≠ literal "NO" := by simp [literal]
  have hlong : 3 < (0x4F :: 0x4B :: 0x7C :: token : Bytes).length := by
    simp only [List.length_cons]
    omega
  rw [judgeReply, if_neg (by simp)]
  dsimp only
  rw [if_neg (hshape ▸ hno), if_pos ⟨List.prefix_append _ _, hshape ▸ hlong⟩, hshape]
  rfl

theorem judgeReply_no :
    judgeReply username ⟨.acknowledgement, literal "NO", []⟩ = .of .authenticationRejected := by
  simp [judgeReply]

theorem judgeReply_error :
    judgeReply username ⟨.errorAck, literal "ERR", []⟩ = .of .protocolError := by
  have hno : literal "ERR" ≠ literal "NO" := by decide
  have hok : ¬(literal "OK|" <+: literal "ERR" ∧ 3 < (literal "ERR").length) := by decide
  simp [judgeReply, hno, hok]

theorem handleRead_arrived (hlive : c.Live)
    (hreads : ∀ piece, .received piece ∈ reads → Deliverable piece) (h : arrived reads ≠ []) :
    ∃ piece later, handleRead c reads =
        some (.dataReceived,
          { c with rxBuffer := c.rxBuffer ++ piece, readWaitingForWrite := false }, later) ∧
      arrived reads = piece ++ arrived later ∧ ∀ read ∈ later, read ∈ reads := by
  induction reads using arrived.induct with
  | case1 piece reads =>
      exact ⟨piece, reads, handleRead_received hlive (hreads piece List.mem_cons_self) reads, rfl,
        fun _ => List.mem_cons_of_mem _⟩
  | case2 reads ih =>
      obtain ⟨piece, later, hread, harrived, hlater⟩ :=
        ih (fun piece hmem => hreads piece (List.mem_cons_of_mem _ hmem)) h
      exact ⟨piece, later, (handleRead_interrupted hlive reads).trans hread, harrived,
        fun read hmem => List.mem_cons_of_mem _ (hlater read hmem)⟩
  | case3 reads hreceived hinterrupted =>
      exact absurd (arrived.eq_3 reads hreceived hinterrupted) h

/-- Whatever arrives, `register_client` does not find out. -/
theorem registerLoop_status {left : Nat} {status : RegisterStatus} {c' : ClientConnection}
    (h : registerLoop left reads c = some (status, c')) :
    status = .protocolError ∨ status = .connectionLost := by
  induction left generalizing reads c with
  | zero =>
      simp only [registerLoop, Option.some.injEq, Prod.mk.injEq] at h
      exact .inl h.1.symm
  | succ left ih =>
      cases hresult : (processDataStream c.rxBuffer).1.status with
      | acknowledgement | errorAck =>
          -- the local `message` is empty
          simp [registerLoop, hresult, literal] at h
          exact .inl h.1.symm
      | invalidProtocolError | printMessage | receivedPong =>
          simp [registerLoop, hresult] at h
          exact .inl h.1.symm
      | bufferEmpty | incompletePacket =>
          simp only [registerLoop, hresult] at h
          split at h
          · simp at h
          · split at h
            · exact ih h
            all_goals
              simp only [Option.some.injEq, Prod.mk.injEq] at h
              exact .inr h.1.symm

theorem registerLoop_decided (left : Nat) (reads : List SslRead)
    (h : (processDataStream c.rxBuffer).1.waits = false) :
    ∃ c', registerLoop (left + 1) reads c = some (.protocolError, c') := by
  cases hresult : (processDataStream c.rxBuffer).1.status with
  | acknowledgement | errorAck => simp [registerLoop, hresult, literal]
  | invalidProtocolError | printMessage | receivedPong => simp [registerLoop, hresult]
  | bufferEmpty | incompletePacket => simp [ProcessStreamResult.waits, hresult] at h

theorem registerLoop_waits {left : Nat} {c' : ClientConnection} {later : List SslRead}
    (h : (processDataStream c.rxBuffer).1.waits = true)
    (hread : handleRead c reads = some (.dataReceived, c', later)) :
    registerLoop (left + 1) reads c = registerLoop left later c' := by
  have hrest := processDataStream_waiting h
  obtain hstatus | hstatus : (processDataStream c.rxBuffer).1.status = .bufferEmpty ∨
      (processDataStream c.rxBuffer).1.status = .incompletePacket := by
    simpa [ProcessStreamResult.waits] using h
  all_goals simp [registerLoop, hstatus, hrest, hread]

theorem registerLoop_reply (left : Nat)
    (hreply : ∀ more, (processDataStream (reply ++ more)).1.waits = false) (hlive : c.Live)
    (hreads : ∀ piece, .received piece ∈ reads → Deliverable piece)
    (harrived : reply <+: c.rxBuffer ++ arrived reads) :
    ∃ c', registerLoop left reads c = some (.protocolError, c') := by
  induction left generalizing reads c with
  | zero => exact ⟨c, rfl⟩
  | succ left ih =>
      cases hwaits : (processDataStream c.rxBuffer).1.waits with
      | false => exact registerLoop_decided left reads hwaits
      | true =>
          have hmore : arrived reads ≠ [] := by
            intro hnothing
            obtain ⟨more, hmore⟩ := harrived
            rw [hnothing, List.append_nil] at hmore
            rw [← hmore, hreply] at hwaits
            simp at hwaits
          obtain ⟨piece, later, hread, hsplit, hlater⟩ := handleRead_arrived hlive hreads hmore
          rw [hsplit, ← List.append_assoc] at harrived
          rw [registerLoop_waits hwaits hread]
          exact ih ⟨hlive.fd, hlive.ssl, hlive.status⟩
            (fun piece hmem => hreads piece (hlater _ hmem)) harrived

end

end TChat.Client
