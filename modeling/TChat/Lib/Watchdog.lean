import Mathlib
import TChat.Lib.Runs
/-!
# Watchdogs

A machine keeps the time of the last sign of life it has taken note of, and gives up on
its peer when that is too long ago.  Where it takes note of some signs only, it gives up
on a peer that is active exactly when none of the recent ones was of that kind.
-/

namespace TChat.Lib

variable {σ ι ε α : Type} {step : ι → σ → Except ε σ} {start s : σ}
  {history : List (Transition σ ι)}

/-- What a machine has to do with a peer: the time kept, if it watches the peer; the time
of an event; the events it takes note of; those in which the peer is active; those in
which the machine looks at the time kept, and those in which it gives up; how long it
waits. -/
structure Watchdog (σ ι α : Type) where
  last : σ → Option α
  time : ι → α
  noted : ι → σ → Prop
  active : ι → σ → Prop
  checks : ι → σ → Prop
  givesUp : ι → σ → Prop
  limit : α

def Recent [Sub α] [LT α] (limit now : α) (times : Set α) : Prop :=
  ∃ time ∈ times, now - time < limit

namespace Watchdog

variable (w : Watchdog σ ι α)

def activeIn (history : List (Transition σ ι)) : Set α :=
  {x | ∃ t ∈ history, w.active t.input t.pre ∧ w.time t.input = x}

/-- The time kept at the start, and the times of the events that were taken note of. -/
def notedIn (start : σ) (history : List (Transition σ ι)) : Set α :=
  {x | w.last start = some x ∨ ∃ t ∈ history, w.noted t.input t.pre ∧ w.time t.input = x}

/-- Whenever the machine gives up, the peer has not been active lately. -/
def Patient [Sub α] [LT α] (history : List (Transition σ ι)) : Prop :=
  ∀ before t after, history = before ++ t :: after → w.givesUp t.input t.pre →
    ¬Recent w.limit (w.time t.input) (w.activeIn before)

/-- Whenever the machine looks and the peer has been active lately, the machine has taken
note of some sign of life lately. -/
def Attended [Sub α] [LT α] (start : σ) (history : List (Transition σ ι)) : Prop :=
  ∀ before t after, history = before ++ t :: after → w.checks t.input t.pre →
    w.last t.pre ≠ none → Recent w.limit (w.time t.input) (w.activeIn before) →
      Recent w.limit (w.time t.input) (w.notedIn start before)

def Steady [LE α] (start : σ) (history : List (Transition σ ι)) : Prop :=
  ((w.last start).toList ++ history.map fun t => w.time t.input).Pairwise (· ≤ ·)

/-- A step keeps the time of a sign that is taken note of, and no other. -/
structure Keeps (t : Transition σ ι) : Prop where
  noted : w.noted t.input t.pre → w.last t.post = some (w.time t.input)
  other : ¬w.noted t.input t.pre → w.last t.post = w.last t.pre ∨ w.last t.post = none

/-- Besides, it gives up on a peer when the machine looks and the time kept is too long
ago. -/
structure Lawful [Sub α] [LE α] (t : Transition σ ι) : Prop extends w.Keeps t where
  givesUp : w.givesUp t.input t.pre ↔ w.checks t.input t.pre ∧
    ∃ last, w.last t.pre = some last ∧ w.limit ≤ w.time t.input - last

variable {w}

theorem attended_of_idle [Sub α] [LinearOrder α]
    (h : ∀ before t after, history = before ++ t :: after → w.checks t.input t.pre →
      ∀ earlier ∈ before, w.limit ≤ w.time t.input - w.time earlier.input) :
    w.Attended start history := by
  rintro before t after hsplit hchecks - ⟨_, ⟨earlier, hmem, -, rfl⟩, hrecent⟩
  exact absurd (h before t after hsplit hchecks earlier hmem) (not_le.mpr hrecent)

section Latest

variable [LinearOrder α]

theorem Steady.before {before after : List (Transition σ ι)}
    (h : w.Steady start (before ++ after)) : w.Steady start before := by
  unfold Steady at h ⊢
  rw [List.map_append, ← List.append_assoc] at h
  exact (List.pairwise_append.mp h).1

theorem Steady.le_last {t : Transition σ ι} (h : w.Steady start (history ++ [t])) {x : α}
    (hx : x ∈ w.notedIn start history) : x ≤ w.time t.input := by
  unfold Steady at h
  rw [List.map_append, ← List.append_assoc, List.map_singleton] at h
  have hlast := (List.pairwise_append.mp h).2.2 x
  apply hlast ?_ _ (List.mem_singleton_self _)
  rw [List.mem_append]
  rcases hx with hstart | ⟨t', ht', -, rfl⟩
  · exact .inl (Option.mem_toList.mpr hstart)
  · exact .inr (List.mem_map_of_mem ht')

theorem isGreatest_last (hrun : Run step start history s) (hkeeps : ∀ t ∈ history, w.Keeps t)
    (hsteady : w.Steady start history) {last : α} (hlast : w.last s = some last) :
    IsGreatest (w.notedIn start history) last := by
  induction hrun generalizing last with
  | start =>
      refine ⟨.inl hlast, ?_⟩
      rintro x (hx | ⟨t, ht, -⟩)
      · exact (Option.some.inj (hx.symm.trans hlast)).le
      · simp at ht
  | @next history s s' i hrun hstep ih =>
      have hstays : w.notedIn start history ⊆ w.notedIn start (history ++ [⟨s, i, s'⟩]) := by
        rintro x (hx | ⟨t, ht, hnoted⟩)
        · exact .inl hx
        · exact .inr ⟨t, List.mem_append_left _ ht, hnoted⟩
      have hkept := hkeeps ⟨s, i, s'⟩ (by simp)
      have hbefore := fun t ht => hkeeps t (List.mem_append_left _ ht)
      by_cases hnoted : w.noted i s
      · have hnow : last = w.time i := by
          have h := hkept.noted hnoted
          exact Option.some.inj (hlast.symm.trans h)
        subst hnow
        refine ⟨.inr ⟨⟨s, i, s'⟩, by simp, hnoted, rfl⟩, ?_⟩
        rintro x (hx | ⟨t, ht, hold, rfl⟩)
        · exact hsteady.le_last (.inl hx)
        · rcases List.mem_append.mp ht with ht | ht
          · exact hsteady.le_last (.inr ⟨t, ht, hold, rfl⟩)
          · rw [List.mem_singleton] at ht
            rw [ht]
      · have hsame : w.last s = some last := by
          rcases hkept.other hnoted with h | h
          · exact h.symm.trans hlast
          · exact absurd (h.symm.trans hlast) nofun
        obtain ⟨hmem, hupper⟩ := ih hbefore hsteady.before hsame
        refine ⟨hstays hmem, ?_⟩
        rintro x (hx | ⟨t, ht, hold, rfl⟩)
        · exact hupper (.inl hx)
        · rcases List.mem_append.mp ht with ht | ht
          · exact hupper (.inr ⟨t, ht, hold, rfl⟩)
          · rw [List.mem_singleton] at ht
            subst ht
            exact absurd hold hnoted

end Latest

section Limit

variable [AddCommGroup α] [LinearOrder α] [IsOrderedAddMonoid α]

theorem recent_iff {limit now last : α} {times : Set α} (h : IsGreatest times last) :
    Recent limit now times ↔ now - last < limit := by
  constructor
  · rintro ⟨time, htime, hrecent⟩
    calc now - last ≤ now - time := sub_le_sub_left (h.2 htime) now
      _ < limit := hrecent
  · intro hrecent
    exact ⟨last, h.1, hrecent⟩

/-- A machine gives up on no active peer if and only if it has taken note of recent
activity whenever it looks. -/
theorem patient_iff_attended (hrun : Run step start history s)
    (hlawful : ∀ t ∈ history, w.Lawful t) (hsteady : w.Steady start history) :
    w.Patient history ↔ w.Attended start history := by
  have hnoted : ∀ {before t after last}, history = before ++ t :: after →
      w.last t.pre = some last → ∀ limit,
        Recent limit (w.time t.input) (w.notedIn start before) ↔
          w.time t.input - last < limit := by
    rintro before t after last rfl hlast limit
    exact recent_iff (isGreatest_last hrun.split.1
      (fun t' ht' => (hlawful t' (List.mem_append_left _ ht')).toKeeps) hsteady.before hlast)
  constructor
  · intro h before t after hsplit hchecks hwatched hactive
    obtain ⟨last, hlast⟩ := Option.ne_none_iff_exists'.mp hwatched
    rw [hnoted hsplit hlast]
    by_contra hlong
    have hgives := (hlawful t (by simp [hsplit])).givesUp
    exact h before t after hsplit (hgives.mpr ⟨hchecks, last, hlast, not_lt.mp hlong⟩) hactive
  · intro h before t after hsplit hgives hactive
    obtain ⟨hchecks, last, hlast, hlong⟩ := (hlawful t (by simp [hsplit])).givesUp.mp hgives
    have hrecent := h before t after hsplit hchecks (by simp [hlast]) hactive
    rw [hnoted hsplit hlast] at hrecent
    exact absurd hlong (not_le.mpr hrecent)

end Limit

end Watchdog

end TChat.Lib
