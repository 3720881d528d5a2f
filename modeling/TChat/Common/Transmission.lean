import TChat.Common.Outgoing
/-!
# Histories of a write queue

`flushLoop_spec` is about one call of `flush_write`.  Here packets are queued and
flushed in any order, and the calls of `SSL_write` are collected over the whole
history of a connection.  A packet that does not fit an `int` stops it for good.
-/

namespace TChat.Common

/-- A connection's history as its queue sees it: the packets that were queued, the
calls of `SSL_write` that were made, and the queue they left.  The wait flag
belongs to the event handlers, which may set it in between. -/
inductive Transmission (store : Nat → Nat) : List Bytes → List SslWriteCall → Outgoing → Prop
  | fresh {waiting : Bool} : Transmission store [] [] ⟨[], 0, waiting⟩
  | queued {queued : List Bytes} {calls : List SslWriteCall} {out : Outgoing} {data : Bytes} :
      Transmission store queued calls out →
      Transmission store (queued ++ [data]) calls (out.queueWrite data)
  | flushed {queued : List Bytes} {calls : List SslWriteCall} {out : Outgoing}
      {outcomes : List SslWrite} {flush : Flush} :
      Transmission store queued calls out → flushLoop store outcomes out = some flush →
      Transmission store queued (calls ++ flush.calls) flush.outgoing
  | flagged {queued : List Bytes} {calls : List SslWriteCall} {out : Outgoing} {waiting : Bool} :
      Transmission store queued calls out →
      Transmission store queued calls { out with writeWaitingForRead := waiting }

structure Transmitted (queued : List Bytes) (calls : List SslWriteCall) (out : Outgoing) :
    Prop where
  consistent : out.Consistent
  conserved : accepted calls ++ out.unsent = queued.flatten
  retries : RetriesSame calls
  pending : ∀ before call error, calls = before ++ [call] → call.outcome = .failed error →
    out.nextRequest = some call.data

section

variable {store : Nat → Nat} {queued : List Bytes} {calls : List SslWriteCall} {out : Outgoing}

theorem nextRequest_queueWrite {request : Bytes} (h : out.nextRequest = some request)
    (data : Bytes) : (out.queueWrite data).nextRequest = some request := by
  have hskip (queue : List Bytes) (offset : Nat) {packet : Bytes} {rest : List Bytes}
      {offset' : Nat} (hqueue : skipEmpty queue offset = (packet :: rest, offset')) :
      skipEmpty (queue ++ [data]) offset = (packet :: rest ++ [data], offset') := by
    induction queue generalizing offset with
    | nil => simp [skipEmpty] at hqueue
    | cons front tail ih =>
        cases front with
        | nil => exact ih 0 hqueue
        | cons byte bytes =>
            simp only [skipEmpty, Prod.mk.injEq, List.cons.injEq] at hqueue
            obtain ⟨⟨rfl, rfl⟩, rfl⟩ := hqueue
            rfl
  unfold Outgoing.nextRequest at h ⊢
  obtain ⟨⟨queue, offset⟩, hqueue⟩ : ∃ x, skipEmpty out.txQueue out.txOffset = x := ⟨_, rfl⟩
  rw [hqueue] at h
  cases queue with
  | nil => simp at h
  | cons packet rest =>
      have hqueue' := hskip _ _ hqueue
      rw [Outgoing.queueWrite]
      simp only [hqueue', List.cons_append]
      exact h

theorem retriesSame_append {more : List SslWriteCall} (hcalls : RetriesSame calls)
    (hmore : RetriesSame more)
    (hseam : ∀ before call error next rest, calls = before ++ [call] →
      call.outcome = .failed error → more = next :: rest → next.data = call.data) :
    RetriesSame (calls ++ more) := by
  induction calls with
  | nil => exact hmore
  | cons first rest ih =>
      refine retriesSame_cons (ih ?_ ?_) ?_
      · intro before call next after h
        exact hcalls (first :: before) call next after (by rw [h]; rfl)
      · intro before call error next after h
        exact hseam (first :: before) call error next after (by rw [h]; rfl)
      · intro next after h error herror
        cases rest with
        | nil => exact hseam [] first error next after rfl herror h
        | cons second tail =>
            obtain ⟨rfl, _⟩ := List.cons.inj h
            exact hcalls [] first second tail rfl error herror

theorem Transmitted.flushed {flush : Flush} (h : Transmitted queued calls out)
    (hspec : FlushSpec out flush) :
    Transmitted queued (calls ++ flush.calls) flush.outgoing := by
  refine ⟨hspec.consistent, ?_, ?_, ?_⟩
  · rw [accepted_append, List.append_assoc, hspec.conserved, h.conserved]
  · refine retriesSame_append h.retries hspec.retries ?_
    intro before call error next rest hcalls herror hflush
    have hpending := h.pending before call error hcalls herror
    rw [hspec.firstRequest next rest hflush, Option.some.injEq] at hpending
    exact hpending
  · intro before call error hcalls herror
    rcases List.eq_nil_or_concat flush.calls with hnil | ⟨init, last, hlast⟩
    · rw [hnil, List.append_nil] at hcalls
      rw [hspec.quiet hnil]
      exact h.pending before call error hcalls herror
    · rw [List.concat_eq_append] at hlast
      rw [hlast, ← List.append_assoc] at hcalls
      have hcall := List.append_inj_right' hcalls rfl
      simp only [List.cons.injEq, and_true] at hcall
      exact hspec.pending init call error (hcall ▸ hlast) herror

/-- Nothing is lost, duplicated or reordered over any history. -/
theorem Transmission.transmitted (hstore : ∀ n ≤ intMax, store n = n)
    (h : Transmission store queued calls out) : Transmitted queued calls out := by
  induction h with
  | fresh =>
      refine ⟨⟨fun _ => rfl, by simp⟩, rfl, retriesSame_nil, ?_⟩
      intro before call error h
      simp at h
  | queued h ih =>
      refine ⟨consistent_queueWrite ih.consistent _, ?_, ih.retries, ?_⟩
      · rw [unsent_queueWrite ih.consistent, ← List.append_assoc, ih.conserved,
          List.flatten_append, List.flatten_singleton]
      · intro before call error hcalls herror
        exact nextRequest_queueWrite (ih.pending before call error hcalls herror) _
  | flushed h hflush ih => exact ih.flushed (flushLoop_spec hstore ih.consistent hflush)
  | flagged h ih =>
      exact ⟨⟨ih.consistent.offset_empty, ih.consistent.offset_front⟩, ih.conserved, ih.retries,
        ih.pending⟩

/-! ## What is too large to be sent -/

/-- Packets that fit an `int` have been taken off the front of the queue. -/
def Pops (queue queue' : List Bytes) : Prop :=
  ∃ gone, queue = gone ++ queue' ∧ ∀ packet ∈ gone, packet.length ≤ intMax

theorem Pops.refl (queue : List Bytes) : Pops queue queue := ⟨[], rfl, by simp⟩

theorem Pops.cons {packet : Bytes} (h : packet.length ≤ intMax) (queue : List Bytes) :
    Pops (packet :: queue) queue :=
  ⟨[packet], rfl, by simpa using h⟩

theorem Pops.trans {first second third : List Bytes} (h : Pops first second)
    (h' : Pops second third) : Pops first third := by
  obtain ⟨gone, rfl, hgone⟩ := h
  obtain ⟨gone', rfl, hgone'⟩ := h'
  refine ⟨gone ++ gone', by rw [List.append_assoc], fun packet hpacket => ?_⟩
  rcases List.mem_append.mp hpacket with hfirst | hsecond
  · exact hgone packet hfirst
  · exact hgone' packet hsecond

theorem Pops.concat {queue queue' : List Bytes} (h : Pops queue queue') (data : Bytes) :
    Pops (queue ++ [data]) (queue' ++ [data]) := by
  obtain ⟨gone, rfl, hgone⟩ := h
  exact ⟨gone, by rw [List.append_assoc], hgone⟩

theorem skipEmpty_pops (queue : List Bytes) (offset : Nat) :
    Pops queue (skipEmpty queue offset).1 := by
  fun_induction skipEmpty queue offset with
  | case1 rest offset ih => exact (Pops.cons (Nat.zero_le _) rest).trans ih
  | case2 queue offset => exact .refl queue

theorem advance_pops {packet : Bytes} {offset : Nat} (hfits : packet.length ≤ intMax)
    (rest : List Bytes) (count : Nat) :
    Pops (packet :: rest) (Outgoing.advance store packet rest offset count).txQueue := by
  unfold Outgoing.advance
  split_ifs
  · exact .cons hfits rest
  · exact .refl _

/-- A flush gets no further than the first packet that does not fit an `int`. -/
theorem flushLoop_pops (hstore : ∀ n ≤ intMax, store n = n) {outcomes : List SslWrite}
    {flush : Flush} (hconsistent : out.Consistent)
    (h : flushLoop store outcomes out = some flush) :
    Pops out.txQueue flush.outgoing.txQueue := by
  fun_induction flushLoop store outcomes out generalizing flush with
  | case4 | case5 => simp at h
  | case6 =>
      rename_i out packet rest offset hskip remaining _ hint more count hcount call ih
      obtain ⟨tail, htail, rfl⟩ := Option.map_eq_some_iff.mp h
      have hskipped := skipEmpty_pops out.txQueue out.txOffset
      rw [hskip] at hskipped
      obtain ⟨hhere, -, -⟩ := skipEmpty_spec hconsistent hskip
      have hfront : offset = 0 ∨ offset < packet.length ∧ packet.length ≤ intMax :=
        hhere.offset_front packet rest rfl
      have hfits : packet.length ≤ intMax := by
        rcases hfront with hzero | ⟨-, hfits⟩ <;> omega
      obtain ⟨hadvance, -⟩ := advance_spec hstore rest (Nat.le_of_not_lt hint)
        (fun hzero => hcount (.inl hzero)) (by omega) hfront
      have hrest := ih hadvance htail
      exact hskipped.trans ((advance_pops hfits rest count).trans hrest)
  | case9 =>
      rename_i out packet rest offset hskip here remaining _ _ more call ih
      obtain ⟨tail, htail, rfl⟩ := Option.map_eq_some_iff.mp h
      have hskipped := skipEmpty_pops out.txQueue out.txOffset
      rw [hskip] at hskipped
      obtain ⟨hhere, -, -⟩ := skipEmpty_spec hconsistent hskip
      have hrest := ih hhere htail
      exact hskipped.trans hrest
  | case1 | case2 | case3 | case7 | case8 | case10 =>
      -- the loop ends where `skipEmpty` left the queue
      grind [skipEmpty_pops]

theorem Transmission.pops (hstore : ∀ n ≤ intMax, store n = n)
    (h : Transmission store queued calls out) : Pops queued out.txQueue := by
  induction h with
  | fresh => exact .refl []
  | queued h ih => exact ih.concat _
  | flushed h hflush ih =>
      exact ih.trans (flushLoop_pops hstore (h.transmitted hstore).consistent hflush)
  | flagged h ih => exact ih

/-- What TLS has taken are bytes of the packets in front of the first that is too large. -/
theorem Transmission.accepted_small (hstore : ∀ n ≤ intMax, store n = n)
    (h : Transmission store queued calls out) :
    accepted calls <+: (queued.takeWhile (·.length ≤ intMax)).flatten := by
  obtain ⟨gone, rfl, hgone⟩ := h.pops hstore
  have hconserved := (h.transmitted hstore).conserved
  have hconsistent := (h.transmitted hstore).consistent
  have hsmall : ∀ queue : List Bytes, (gone ++ queue).takeWhile (·.length ≤ intMax) =
      gone ++ queue.takeWhile (·.length ≤ intMax) :=
    fun queue => List.takeWhile_append_of_pos fun packet hpacket =>
      decide_eq_true (hgone packet hpacket)
  rw [hsmall, List.flatten_append]
  rw [List.flatten_append] at hconserved
  cases hqueue : out.txQueue with
  | nil =>
      have hnothing : out.unsent = [] := by rw [Outgoing.unsent, hqueue]
      rw [hnothing, hqueue, List.append_nil] at hconserved
      rw [hconserved]
      exact List.prefix_append_right_inj _ |>.mpr (by simp)
  | cons packet rest =>
      -- the front packet up to the offset
      have htaken : accepted calls = gone.flatten ++ packet.take out.txOffset := by
        rw [Outgoing.unsent, hqueue, List.flatten_cons, ← List.append_assoc,
          ← List.append_assoc] at hconserved
        have hfront := List.append_cancel_right hconserved
        have hsplit : accepted calls ++ packet.drop out.txOffset =
            (gone.flatten ++ packet.take out.txOffset) ++ packet.drop out.txOffset := by
          rw [hfront, List.append_assoc, List.take_append_drop]
        exact List.append_cancel_right hsplit
      rw [htaken, List.prefix_append_right_inj]
      rcases hconsistent.offset_front packet rest hqueue with hzero | ⟨-, hfits⟩
      · rw [hzero, List.take_zero]
        exact List.nil_prefix
      · rw [List.takeWhile_cons_of_pos (by simpa using hfits), List.flatten_cons]
        exact (List.take_prefix _ _).trans (List.prefix_append _ _)

theorem length_le_of_flatten_prefix {before after : List Bytes}
    (h : before.flatten <+: ((before ++ after).takeWhile (·.length ≤ intMax)).flatten) :
    ∀ packet ∈ before, packet.length ≤ intMax := by
  induction before with
  | nil => simp
  | cons packet before ih =>
      by_cases hfits : packet.length ≤ intMax
      · rw [List.cons_append, List.takeWhile_cons_of_pos (by simpa using hfits),
          List.flatten_cons, List.flatten_cons, List.prefix_append_right_inj] at h
        intro other hother
        rcases List.mem_cons.mp hother with rfl | hmem
        · exact hfits
        · exact ih h other hmem
      · rw [List.cons_append, List.takeWhile_cons_of_neg (by simpa using hfits),
          List.flatten_nil, List.prefix_nil, List.flatten_cons, List.append_eq_nil_iff] at h
        rw [h.1] at hfits
        exact absurd (Nat.zero_le _) hfits

end

end TChat.Common
