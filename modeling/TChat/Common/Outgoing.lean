import TChat.Common.Protocol
/-!
# The outgoing half of a connection

`queue_write` and the loop of `flush_write`, which the server and the client
have in the same words.  OpenSSL is the environment: each `SSL_write` takes the
next outcome of a list that the caller supplies, and the requests made are
handed back so that the bytes on the wire can be spoken about.  The two
programs differ only in the type of `tx_offset`, so the conversion applied when
it is stored is a parameter `store`.
-/

namespace TChat.Common

/-- The values of `errno` that the sources tell apart. -/
inductive Errno
  | zero
  | eintr
  | eagain
  | other
  deriving DecidableEq, Repr

/-- What `SSL_get_error` reports, with `errno` for `SSL_ERROR_SYSCALL`. -/
inductive SslError
  | noError
  | wantRead
  | wantWrite
  | zeroReturn
  | syscall (errno : Errno)
  | ssl
  | other
  deriving DecidableEq, Repr

/-- One return of `SSL_write`: the number of bytes taken, or an error. -/
inductive SslWrite
  | wrote (count : Nat)
  | failed (error : SslError)
  deriving DecidableEq, Repr

/-- One return of `SSL_read`: the bytes read, or an error. -/
inductive SslRead
  | received (bytes : Bytes)
  | failed (error : SslError)
  deriving DecidableEq, Repr

inductive FlushResult
  | queueEmpty
  | writeWait
  | readWait
  | fatalError
  deriving DecidableEq, Repr

/-- The fields of a `ClientConnection` that `flush_write` works on. -/
structure Outgoing where
  txQueue : List Bytes
  txOffset : Nat
  writeWaitingForRead : Bool
  deriving DecidableEq, Repr

structure SslWriteCall where
  data : Bytes
  outcome : SslWrite
  deriving DecidableEq, Repr

structure Flush where
  result : FlushResult
  outgoing : Outgoing
  calls : List SslWriteCall
  deriving DecidableEq, Repr

def intMax : Nat := 2 ^ 31 - 1

def Outgoing.queueWrite (out : Outgoing) (data : Bytes) : Outgoing :=
  { out with txQueue := out.txQueue ++ [data] }

def Outgoing.notWaiting (out : Outgoing) : Outgoing :=
  { out with writeWaitingForRead := false }

/-- The iterations of the loop that pop an empty front packet. -/
def skipEmpty : List Bytes → Nat → List Bytes × Nat
  | [] :: rest, _ => skipEmpty rest 0
  | queue, offset => (queue, offset)

/-- The queue and offset after `SSL_write` took `count` bytes of the front
packet. -/
def Outgoing.advance (store : Nat → Nat) (packet : Bytes) (rest : List Bytes)
    (offset count : Nat) : Outgoing :=
  if store (offset + count) = packet.length then
    { txQueue := rest, txOffset := 0, writeWaitingForRead := false }
  else
    { txQueue := packet :: rest
      txOffset := store (offset + count)
      writeWaitingForRead := false }

/-- The loop of `flush_write` on a connection with an SSL object.  `none`: the
outcomes supplied end before the loop does, or one of them is not something
`SSL_write` may return (it takes between one and all of the bytes offered). -/
def flushLoop (store : Nat → Nat) : List SslWrite → Outgoing → Option Flush
  | outcomes, out =>
      match skipEmpty out.txQueue out.txOffset with
      | ([], offset) =>
          some
            { result := .queueEmpty
              outgoing := ⟨[], offset, false⟩
              calls := [] }
      | (packet :: rest, offset) =>
          let here := { out with txQueue := packet :: rest, txOffset := offset }
          let remaining := packet.length - offset
          if packet.length < offset then some ⟨.fatalError, here, []⟩
          else if intMax < remaining then some ⟨.fatalError, here, []⟩
          else
            match outcomes with
            | [] => none
            | outcome :: more =>
                let call : SslWriteCall := ⟨packet.drop offset, outcome⟩
                match outcome with
                | .wrote count =>
                    if count = 0 ∨ remaining < count then none
                    else
                      (flushLoop store more
                          (Outgoing.advance store packet rest offset count)).map
                        fun flush => { flush with calls := call :: flush.calls }
                | .failed .wantRead =>
                    some ⟨.readWait, { here with writeWaitingForRead := true }, [call]⟩
                | .failed .wantWrite =>
                    some ⟨.writeWait, { here with writeWaitingForRead := false }, [call]⟩
                | .failed (.syscall .eintr) =>
                    (flushLoop store more here).map
                      fun flush => { flush with calls := call :: flush.calls }
                | .failed _ => some ⟨.fatalError, here, [call]⟩

/-! ## What is still to be sent -/

/-- The bytes `SSL_write` has taken over a sequence of calls. -/
def accepted (calls : List SslWriteCall) : Bytes :=
  calls.flatMap fun call =>
    match call.outcome with
    | .wrote count => call.data.take count
    | .failed _ => []

/-- The unsent bytes: the front packet from the offset on, then the rest. -/
def Outgoing.unsent (out : Outgoing) : Bytes :=
  match out.txQueue with
  | [] => []
  | packet :: rest => packet.drop out.txOffset ++ rest.flatten

/-- The invariant of the queue and its offset.  A front packet that has been
started fits an `int`, so storing the offset loses nothing. -/
structure Outgoing.Consistent (out : Outgoing) : Prop where
  offset_empty : out.txQueue = [] → out.txOffset = 0
  offset_front : ∀ packet rest, out.txQueue = packet :: rest →
    out.txOffset = 0 ∨ out.txOffset < packet.length ∧ packet.length ≤ intMax

@[simp] theorem accepted_nil : accepted [] = [] := rfl

theorem accepted_append (a b : List SslWriteCall) :
    accepted (a ++ b) = accepted a ++ accepted b := by
  simp [accepted]

@[simp] theorem accepted_cons_wrote (data : Bytes) (count : Nat)
    (calls : List SslWriteCall) :
    accepted (⟨data, .wrote count⟩ :: calls) = data.take count ++ accepted calls := rfl

@[simp] theorem accepted_cons_failed (data : Bytes) (error : SslError)
    (calls : List SslWriteCall) :
    accepted (⟨data, .failed error⟩ :: calls) = accepted calls := rfl

theorem unsent_queueWrite {out : Outgoing} (h : out.Consistent) (data : Bytes) :
    (out.queueWrite data).unsent = out.unsent ++ data := by
  cases hq : out.txQueue with
  | nil =>
      have hoff := h.offset_empty hq
      simp [Outgoing.queueWrite, Outgoing.unsent, hq, hoff]
  | cons packet rest => simp [Outgoing.queueWrite, Outgoing.unsent, hq]

theorem consistent_queueWrite {out : Outgoing} (h : out.Consistent) (data : Bytes) :
    (out.queueWrite data).Consistent := by
  refine ⟨by simp [Outgoing.queueWrite], ?_⟩
  intro packet rest hqueue
  cases hq : out.txQueue with
  | nil => exact Or.inl (h.offset_empty hq)
  | cons front tail =>
      simp only [Outgoing.queueWrite, hq, List.cons_append, List.cons.injEq] at hqueue
      obtain ⟨rfl, _⟩ := hqueue
      exact h.offset_front front tail hq

theorem skipEmpty_spec {out : Outgoing} (h : out.Consistent) {queue : List Bytes}
    {offset : Nat} (hskip : skipEmpty out.txQueue out.txOffset = (queue, offset)) :
    let out' : Outgoing := { out with txQueue := queue, txOffset := offset }
    out'.Consistent ∧ out'.unsent = out.unsent ∧
      ∀ packet rest, queue = packet :: rest → packet ≠ [] := by
  obtain ⟨txQueue, txOffset, waiting⟩ := out
  induction txQueue generalizing txOffset with
  | nil =>
      simp only [skipEmpty, Prod.mk.injEq] at hskip
      obtain ⟨rfl, rfl⟩ := hskip
      exact ⟨h, rfl, by simp⟩
  | cons packet rest ih =>
      cases packet with
      | nil =>
          have hzero : txOffset = 0 := by
            rcases h.offset_front [] rest rfl with hzero | ⟨hlt, _⟩
            · exact hzero
            · simp at hlt
          have hrest : Outgoing.Consistent ⟨rest, 0, waiting⟩ :=
            ⟨fun _ => rfl, fun _ _ _ => Or.inl rfl⟩
          obtain ⟨hcons, hunsent, hfront⟩ := ih 0 hrest hskip
          refine ⟨hcons, ?_, hfront⟩
          rw [hunsent, hzero]
          cases rest <;> simp [Outgoing.unsent]
      | cons byte bytes =>
          simp only [skipEmpty, Prod.mk.injEq] at hskip
          obtain ⟨rfl, rfl⟩ := hskip
          refine ⟨h, rfl, ?_⟩
          rintro _ _ ⟨rfl, rfl⟩
          simp

/-- One successful `SSL_write`: the bytes taken and the bytes left are the
bytes there were. -/
theorem advance_spec {store : Nat → Nat} (hstore : ∀ n ≤ intMax, store n = n)
    {packet : Bytes} (rest : List Bytes) {offset count : Nat}
    (hfits : packet.length - offset ≤ intMax) (hpos : count ≠ 0)
    (hcount : count ≤ packet.length - offset)
    (hoffset : offset = 0 ∨ offset < packet.length ∧ packet.length ≤ intMax) :
    (Outgoing.advance store packet rest offset count).Consistent ∧
      (packet.drop offset).take count ++
          (Outgoing.advance store packet rest offset count).unsent =
        packet.drop offset ++ rest.flatten := by
  have hlength : packet.length ≤ intMax := by
    rcases hoffset with rfl | ⟨_, hle⟩
    · simpa using hfits
    · exact hle
  have hsum : store (offset + count) = offset + count := hstore _ (by omega)
  unfold Outgoing.advance
  rw [hsum]
  split_ifs with hdone
  · refine ⟨⟨fun _ => rfl, fun _ _ _ => Or.inl rfl⟩, ?_⟩
    have hall : (packet.drop offset).take count = packet.drop offset := by
      apply List.take_of_length_le
      rw [List.length_drop]
      omega
    rw [hall]
    cases rest <;> simp [Outgoing.unsent]
  · refine ⟨⟨by simp, ?_⟩, ?_⟩
    · rintro front tail hqueue
      simp only [List.cons.injEq] at hqueue
      obtain ⟨rfl, _⟩ := hqueue
      exact Or.inr ⟨by dsimp only; omega, hlength⟩
    · simp only [Outgoing.unsent]
      rw [← List.append_assoc, ← List.drop_drop, List.take_append_drop]

/-! ## The loop -/

def Outgoing.nextRequest (out : Outgoing) : Option Bytes :=
  match skipEmpty out.txQueue out.txOffset with
  | ([], _) => none
  | (packet :: _, offset) => some (packet.drop offset)

def RetriesSame (calls : List SslWriteCall) : Prop :=
  ∀ before call next after, calls = before ++ call :: next :: after →
    ∀ error, call.outcome = .failed error → next.data = call.data

structure FlushSpec (out : Outgoing) (flush : Flush) : Prop where
  consistent : flush.outgoing.Consistent
  conserved : accepted flush.calls ++ flush.outgoing.unsent = out.unsent
  empty_iff : flush.result = .queueEmpty ↔ flush.outgoing.unsent = []
  drained : flush.result = .queueEmpty → flush.outgoing.txQueue = []
  retries : RetriesSame flush.calls
  firstRequest : ∀ call rest, flush.calls = call :: rest → out.nextRequest = some call.data
  pending : ∀ before call error, flush.calls = before ++ [call] →
    call.outcome = .failed error → flush.outgoing.nextRequest = some call.data
  quiet : flush.calls = [] → flush.outgoing.nextRequest = out.nextRequest

theorem retriesSame_nil : RetriesSame [] := by
  intro before call next after h
  simp at h

theorem retriesSame_cons {call : SslWriteCall} {calls : List SslWriteCall}
    (hcalls : RetriesSame calls)
    (hfirst : ∀ next rest, calls = next :: rest →
      ∀ error, call.outcome = .failed error → next.data = call.data) :
    RetriesSame (call :: calls) := by
  intro before failed next after h error herror
  cases before with
  | nil =>
      simp only [List.nil_append, List.cons.injEq] at h
      obtain ⟨rfl, hrest⟩ := h
      exact hfirst next after hrest error herror
  | cons first before =>
      simp only [List.cons_append, List.cons.injEq] at h
      exact hcalls before failed next after h.2 error herror

theorem nextRequest_of_front {queue : List Bytes} {packet : Bytes}
    {rest : List Bytes} (offset : Nat) (waiting : Bool) (hpacket : packet ≠ [])
    (hqueue : queue = packet :: rest) :
    Outgoing.nextRequest ⟨queue, offset, waiting⟩ = some (packet.drop offset) := by
  subst hqueue
  cases packet with
  | nil => exact absurd rfl hpacket
  | cons byte bytes => rfl

theorem unsent_ne_nil {out : Outgoing} (h : out.Consistent) {packet : Bytes}
    {rest : List Bytes} (hqueue : out.txQueue = packet :: rest) (hpacket : packet ≠ []) :
    out.unsent ≠ [] := by
  have hlt : out.txOffset < packet.length := by
    rcases h.offset_front packet rest hqueue with hzero | ⟨hlt, _⟩
    · rw [hzero]
      exact List.length_pos_iff.mpr hpacket
    · exact hlt
  rw [Outgoing.unsent, hqueue]
  intro hnil
  have hdrop := (List.append_eq_nil_iff.mp hnil).1
  rw [List.drop_eq_nil_iff] at hdrop
  omega

theorem flushSpec_stop {out here : Outgoing} {packet : Bytes} {rest : List Bytes}
    {result : FlushResult} {calls : List SslWriteCall}
    (hcons : here.Consistent) (hunsent : here.unsent = out.unsent)
    (hqueue : here.txQueue = packet :: rest) (hpacket : packet ≠ [])
    (hresult : result ≠ .queueEmpty)
    (hnext : out.nextRequest = some (packet.drop here.txOffset))
    (hcalls : calls = [] ∨ ∃ error, calls = [⟨packet.drop here.txOffset, .failed error⟩]) :
    FlushSpec out ⟨result, here, calls⟩ := by
  have hhere : here.nextRequest = some (packet.drop here.txOffset) :=
    nextRequest_of_front here.txOffset here.writeWaitingForRead hpacket hqueue
  have haccepted : accepted calls = [] := by
    rcases hcalls with rfl | ⟨error, rfl⟩ <;> rfl
  refine ⟨hcons, by rw [haccepted]; exact hunsent, ?_, ?_, ?_, ?_, ?_, ?_⟩
  · exact iff_of_false hresult (unsent_ne_nil hcons hqueue hpacket)
  · exact fun h => absurd h hresult
  · rcases hcalls with rfl | ⟨error, rfl⟩
    · exact retriesSame_nil
    · exact retriesSame_cons retriesSame_nil (by simp)
  · rintro call tail heq
    rcases hcalls with rfl | ⟨error, rfl⟩
    · simp at heq
    · simp only [List.cons.injEq] at heq
      rw [← heq.1, hnext]
  · rintro before call error heq _
    rcases hcalls with rfl | ⟨error', rfl⟩
    · simp at heq
    · have hcall := List.append_inj_right' ((List.nil_append _).trans heq) (by simp)
      simp only [List.cons.injEq, and_true] at hcall
      rw [← hcall, hhere]
  · exact fun _ => hhere.trans hnext.symm

theorem flushSpec_cons {out middle : Outgoing} {flush : Flush} {call : SslWriteCall}
    (hrest : FlushSpec middle flush)
    (hconserved : accepted [call] ++ middle.unsent = out.unsent)
    (hnext : out.nextRequest = some call.data)
    (hretry : ∀ error, call.outcome = .failed error → middle.nextRequest = some call.data) :
    FlushSpec out { flush with calls := call :: flush.calls } := by
  refine ⟨hrest.consistent, ?_, hrest.empty_iff, hrest.drained, ?_, ?_, ?_, by simp⟩
  · have hsplit : accepted (call :: flush.calls) = accepted [call] ++ accepted flush.calls :=
      accepted_append [call] flush.calls
    rw [hsplit, List.append_assoc, hrest.conserved, hconserved]
  · apply retriesSame_cons hrest.retries
    intro next rest hcalls error herror
    have hmiddle := hrest.firstRequest next rest hcalls
    rw [hretry error herror, Option.some.injEq] at hmiddle
    exact hmiddle.symm
  · rintro first rest heq
    simp only [List.cons.injEq] at heq
    rw [← heq.1, hnext]
  · rintro before last error heq herror
    cases before with
    | nil =>
        simp only [List.nil_append, List.cons.injEq] at heq
        obtain ⟨rfl, hnil⟩ := heq
        exact (hrest.quiet hnil).trans (hretry error herror)
    | cons first before =>
        simp only [List.cons_append, List.cons.injEq] at heq
        exact hrest.pending before last error heq.2 herror

theorem flushSpec_drained {out : Outgoing} (hcons : out.Consistent) {offset : Nat}
    (hskip : skipEmpty out.txQueue out.txOffset = ([], offset)) :
    FlushSpec out ⟨.queueEmpty, ⟨[], offset, false⟩, []⟩ := by
  obtain ⟨hhere, hunsent, _⟩ := skipEmpty_spec hcons hskip
  have hoffset : offset = 0 := hhere.offset_empty rfl
  subst hoffset
  refine ⟨⟨fun _ => rfl, by simp⟩, ?_, by simp [Outgoing.unsent], fun _ => rfl,
    retriesSame_nil, by simp, by simp, ?_⟩
  · simpa [Outgoing.unsent] using hunsent
  · intro _
    simp [Outgoing.nextRequest, hskip, skipEmpty]

theorem flushLoop_spec {store : Nat → Nat} (hstore : ∀ n ≤ intMax, store n = n) :
    ∀ {outcomes : List SslWrite} {out : Outgoing} {flush : Flush},
      out.Consistent → flushLoop store outcomes out = some flush → FlushSpec out flush := by
  intro outcomes out flush hcons h
  obtain ⟨⟨queue, offset⟩, hskip⟩ : ∃ x, skipEmpty out.txQueue out.txOffset = x :=
    ⟨_, rfl⟩
  obtain ⟨hhere, hunsent, hfront⟩ := skipEmpty_spec hcons hskip
  rw [flushLoop, hskip] at h
  cases queue with
  | nil =>
      simp only [Option.some.injEq] at h
      subst h
      exact flushSpec_drained hcons hskip
  | cons packet rest =>
      have hpacket := hfront packet rest rfl
      have hnext : out.nextRequest = some (packet.drop offset) := by
        simp [Outgoing.nextRequest, hskip]
      have hretry (waiting : Bool) :
          Outgoing.nextRequest ⟨packet :: rest, offset, waiting⟩ =
            some (packet.drop offset) :=
        nextRequest_of_front offset waiting hpacket rfl
      dsimp only at h
      split_ifs at h with hlarge hint
      · simp only [Option.some.injEq] at h
        subst h
        exact flushSpec_stop hhere hunsent rfl hpacket (by simp) hnext (Or.inl rfl)
      · simp only [Option.some.injEq] at h
        subst h
        exact flushSpec_stop hhere hunsent rfl hpacket (by simp) hnext (Or.inl rfl)
      · -- the front packet is offered to `SSL_write`
        cases outcomes with
        | nil => simp at h
        | cons outcome more =>
            cases outcome with
            | wrote count =>
                dsimp only at h
                split_ifs at h with hcount
                rw [Option.map_eq_some_iff] at h
                obtain ⟨tail, htail, rfl⟩ := h
                have hpos : count ≠ 0 := by tauto
                have hle : count ≤ packet.length - offset := by omega
                obtain ⟨hadvance, htaken⟩ := advance_spec hstore rest
                  (Nat.le_of_not_lt hint) hpos hle (hhere.offset_front packet rest rfl)
                have hspec := flushLoop_spec hstore hadvance htail
                refine flushSpec_cons hspec ?_ hnext (by simp)
                rw [accepted_cons_wrote, accepted_nil, List.append_nil, htaken, ← hunsent]
                rfl
            | failed error =>
                have hwaiting (waiting : Bool) :
                    Outgoing.Consistent ⟨packet :: rest, offset, waiting⟩ :=
                  ⟨hhere.offset_empty, hhere.offset_front⟩
                have hstop (waiting : Bool) {result : FlushResult}
                    (hresult : result ≠ .queueEmpty) :
                    FlushSpec out ⟨result, ⟨packet :: rest, offset, waiting⟩,
                      [⟨packet.drop offset, .failed error⟩]⟩ :=
                  flushSpec_stop (hwaiting waiting) hunsent rfl hpacket hresult hnext
                    (Or.inr ⟨error, rfl⟩)
                cases error with
                | syscall errno =>
                    cases errno with
                    | eintr =>
                        rw [Option.map_eq_some_iff] at h
                        obtain ⟨tail, htail, rfl⟩ := h
                        have hspec := flushLoop_spec hstore (hwaiting _) htail
                        refine flushSpec_cons hspec ?_ hnext (fun _ _ => hretry _)
                        exact hunsent
                    | _ =>
                        simp only [Option.some.injEq] at h
                        subst h
                        exact hstop _ (by simp)
                | _ =>
                    simp only [Option.some.injEq] at h
                    subst h
                    exact hstop _ (by simp)
termination_by outcomes => outcomes.length

theorem flushLoop_waiting {store : Nat → Nat} {outcomes : List SslWrite} {out : Outgoing}
    {flush : Flush} (h : flushLoop store outcomes out = some flush)
    (hresult : flush.result ≠ .fatalError) :
    flush.outgoing.writeWaitingForRead = decide (flush.result = .readWait) := by
  fun_induction flushLoop store outcomes out generalizing flush <;>
    grind [Option.map_eq_some_iff]

theorem flushLoop_queue {store : Nat → Nat} {outcomes : List SslWrite} {out : Outgoing}
    {flush : Flush} (h : flushLoop store outcomes out = some flush) :
    (flush.result = .queueEmpty → flush.outgoing.txQueue = []) ∧
      (flush.result = .readWait → flush.outgoing.txQueue ≠ []) := by
  fun_induction flushLoop store outcomes out generalizing flush <;>
    grind [Option.map_eq_some_iff]

theorem skipEmpty_suffix (queue : List Bytes) (offset : Nat) :
    (skipEmpty queue offset).1 <:+ queue := by
  fun_induction skipEmpty queue offset with
  | case1 rest offset ih => exact ih.trans (List.suffix_cons _ _)
  | case2 => exact List.suffix_rfl

theorem advance_suffix (store : Nat → Nat) (packet : Bytes) (rest : List Bytes)
    (offset count : Nat) :
    (Outgoing.advance store packet rest offset count).txQueue <:+ packet :: rest := by
  unfold Outgoing.advance
  split_ifs
  · exact List.suffix_cons _ _
  · exact List.suffix_rfl

theorem flushLoop_suffix {store : Nat → Nat} {outcomes : List SslWrite} {out : Outgoing}
    {flush : Flush} (h : flushLoop store outcomes out = some flush) :
    flush.outgoing.txQueue <:+ out.txQueue := by
  fun_induction flushLoop store outcomes out generalizing flush <;>
    grind [Option.map_eq_some_iff, List.IsSuffix.trans, skipEmpty_suffix, advance_suffix]

/-- The errors of `SSL_write` after which a connection cannot be written to. -/
def SslError.Fatal (error : SslError) : Prop :=
  error ≠ .wantRead ∧ error ≠ .wantWrite ∧ error ≠ .syscall .eintr

theorem front_of_skipEmpty {out : Outgoing} (hconsistent : out.Consistent)
    (hsmall : ∀ packet ∈ out.txQueue, packet.length ≤ intMax) {packet : Bytes}
    {rest : List Bytes} {offset : Nat}
    (hskip : skipEmpty out.txQueue out.txOffset = (packet :: rest, offset)) :
    (offset = 0 ∨ offset < packet.length ∧ packet.length ≤ intMax) ∧
      ∀ p ∈ packet :: rest, p.length ≤ intMax := by
  have hsuffix := skipEmpty_suffix out.txQueue out.txOffset
  rw [hskip] at hsuffix
  obtain ⟨hhere, -, -⟩ := skipEmpty_spec hconsistent hskip
  exact ⟨hhere.offset_front packet rest rfl, fun p hp => hsmall p (hsuffix.subset hp)⟩

/-- With packets that fit an `int`, a flush fails only where `SSL_write` does. -/
theorem flushLoop_fatal {store : Nat → Nat} (hstore : ∀ n ≤ intMax, store n = n)
    {outcomes : List SslWrite} {out : Outgoing} {flush : Flush} (hconsistent : out.Consistent)
    (hsmall : ∀ packet ∈ out.txQueue, packet.length ≤ intMax)
    (h : flushLoop store outcomes out = some flush) (hfatal : flush.result = .fatalError) :
    ∃ call ∈ flush.calls, ∃ error, call.outcome = .failed error ∧ error.Fatal := by
  fun_induction flushLoop store outcomes out generalizing flush with
  | case1 | case7 | case8 => grind
  | case2 _ _ _ _ _ hskip hlarge =>
      obtain ⟨hfront, -⟩ := front_of_skipEmpty hconsistent hsmall hskip
      omega
  | case3 _ _ packet _ _ hskip _ _ hint =>
      obtain ⟨-, hfits⟩ := front_of_skipEmpty hconsistent hsmall hskip
      have hpacket := hfits packet List.mem_cons_self
      omega
  | case4 | case5 => simp at h
  | case6 =>
      rename_i out packet rest offset hskip remaining _ hint more count hcount call ih
      obtain ⟨tail, htail, rfl⟩ := Option.map_eq_some_iff.mp h
      obtain ⟨hfront, hfits⟩ := front_of_skipEmpty hconsistent hsmall hskip
      obtain ⟨hadvance, -⟩ := advance_spec hstore rest (Nat.le_of_not_lt hint)
        (fun hzero => hcount (.inl hzero)) (by omega) hfront
      obtain ⟨call, hcall, hfailed⟩ := ih hadvance
        (fun p hp => hfits p ((advance_suffix ..).subset hp)) htail hfatal
      exact ⟨call, List.mem_cons_of_mem _ hcall, hfailed⟩
  | case9 =>
      rename_i out packet rest offset hskip here remaining _ _ more call ih
      obtain ⟨tail, htail, rfl⟩ := Option.map_eq_some_iff.mp h
      obtain ⟨hfront, hfits⟩ := front_of_skipEmpty hconsistent hsmall hskip
      obtain ⟨hhere, -, -⟩ := skipEmpty_spec hconsistent hskip
      obtain ⟨call, hcall, hfailed⟩ := ih hhere hfits htail hfatal
      exact ⟨call, List.mem_cons_of_mem _ hcall, hfailed⟩
  | case10 =>
      rename_i more error hread hwrite hintr call
      obtain rfl := Option.some.inj h
      exact ⟨_, List.mem_cons_self, error, rfl, by
        refine ⟨?_, ?_, ?_⟩ <;> rintro rfl
        · exact hread rfl
        · exact hwrite rfl
        · exact hintr rfl⟩

end TChat.Common
