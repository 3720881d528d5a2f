import Mathlib
/-!
# Counting loops

A loop that counts from zero, whose body may fail.
-/

namespace TChat.Lib

/-- The rounds `0` to `n - 1` of `body`. -/
def forRange {σ : Type} (n : ℕ) (body : ℕ → σ → Option σ) (s : σ) : Option σ :=
  (List.range n).foldlM (fun s i => body i s) s

variable {σ : Type} {n i : ℕ} {body : ℕ → σ → Option σ} {s s' : σ}

@[simp] theorem forRange_zero : forRange 0 body s = some s := rfl

theorem forRange_succ : forRange (n + 1) body s = (forRange n body s).bind (body n) := by
  rw [forRange, List.range_succ, List.foldlM_append]
  simp [forRange]

/-- What each round keeps, with the number of rounds done, holds after the loop. -/
theorem forRange_invariant (invariant : ℕ → σ → Prop) (hstart : invariant 0 s)
    (hround : ∀ i s, i < n → invariant i s → ∃ s', body i s = some s' ∧ invariant (i + 1) s') :
    ∃ s', forRange n body s = some s' ∧ invariant n s' := by
  induction n with
  | zero => exact ⟨s, rfl, hstart⟩
  | succ n ih =>
      obtain ⟨before, hbefore, hinvariant⟩ :=
        ih fun i s hi hs => hround i s (Nat.lt_succ_of_lt hi) hs
      obtain ⟨after, hafter, hkept⟩ := hround n before (Nat.lt_succ_self n) hinvariant
      exact ⟨after, by rw [forRange_succ, hbefore, Option.bind_some, hafter], hkept⟩

theorem forRange_round (h : forRange n body s = some s') (hi : i < n) :
    ∃ before after, body i before = some after := by
  induction n generalizing s' with
  | zero => exact absurd hi (Nat.not_lt_zero i)
  | succ n ih =>
      rw [forRange_succ] at h
      obtain ⟨before, hbefore, hlast⟩ := Option.bind_eq_some_iff.mp h
      rcases Nat.lt_succ_iff_lt_or_eq.mp hi with hlt | rfl
      · exact ih hbefore hlt
      · exact ⟨before, s', hlast⟩

/-! ## A counter beside a state -/

/-- A fold over a counter and a state, where the rounds move the counter along `cursor`
whatever the state is, is the fold over the state alone. -/
theorem foldl_finRange_counter {body : σ × ℕ → Fin n → σ × ℕ} {round : σ → Fin n → σ}
    (cursor : ℕ → ℕ) (hbody : ∀ s (i : Fin n), body (s, cursor i) i = (round s i, cursor (i + 1))) :
    (List.finRange n).foldl body (s, cursor 0) =
      ((List.finRange n).foldl round s, cursor n) := by
  induction n with
  | zero => rfl
  | succ n ih =>
      rw [List.finRange_succ_last, List.foldl_append, List.foldl_append, List.foldl_map,
        List.foldl_map, ih fun s i => hbody s i.castSucc]
      exact hbody _ (Fin.last n)

end TChat.Lib
