import Mathlib
/-!
# Loops and what they return

The body of a loop takes the value it works on to the next one, or returns.  A loop
whose value shrinks in every round that does not return comes to its end after a number
of rounds that the size bounds, and a map that the rounds commute with takes the rounds
on one value to the rounds on its image.
-/

namespace TChat.Lib

inductive Round (σ ρ : Type)
  | again (next : σ)
  | done (result : ρ)

variable {σ ρ : Type} {body : σ → Round σ ρ} {s s' : σ} {n m : Nat} {result result' : ρ}

/-- `n` rounds that do not return take the loop from one value to another. -/
inductive Reaches (body : σ → Round σ ρ) : σ → Nat → σ → Prop
  | start {s : σ} : Reaches body s 0 s
  | again {s next last : σ} {n : Nat} :
      body s = .again next → Reaches body next n last → Reaches body s (n + 1) last

/-- The loop returns in the round after `n` that do not. -/
def Returns (body : σ → Round σ ρ) (s : σ) (n : Nat) (result : ρ) : Prop :=
  ∃ last, Reaches body s n last ∧ body last = .done result

theorem Reaches.trans {middle last : σ} (h : Reaches body s n middle)
    (h' : Reaches body middle m last) : Reaches body s (n + m) last := by
  induction h with
  | start => rwa [Nat.zero_add]
  | again hagain _ ih =>
      rw [Nat.succ_add]
      exact .again hagain (ih h')

theorem Reaches.map (f : σ → σ) (hf : ∀ {s next}, body s = .again next →
    body (f s) = .again (f next)) (h : Reaches body s n s') :
    Reaches body (f s) n (f s') := by
  induction h with
  | start => exact .start
  | again hagain _ ih => exact .again (hf hagain) ih

namespace Returns

theorem of_done (h : body s = .done result) : Returns body s 0 result :=
  ⟨s, .start, h⟩

theorem of_reaches (h : Reaches body s n s') (h' : Returns body s' m result) :
    Returns body s (n + m) result := by
  obtain ⟨last, hlast, hdone⟩ := h'
  exact ⟨last, h.trans hlast, hdone⟩

end Returns

/-- A loop whose value loses at least `cost` of its size in every round that does not
return comes to its end. -/
theorem exists_returns (size : σ → Nat) {cost : Nat} (hcost : 0 < cost)
    (hshrinks : ∀ {s next}, body s = .again next → size next + cost ≤ size s) (s : σ) :
    ∃ n result, Returns body s n result ∧ n ≤ size s / cost := by
  induction hsize : size s using Nat.strong_induction_on generalizing s with
  | _ k ih =>
      subst hsize
      cases hbody : body s with
      | done result => exact ⟨0, result, .of_done hbody, Nat.zero_le _⟩
      | again next =>
          have hless := hshrinks hbody
          obtain ⟨n, result, hreturns, hn⟩ := ih (size next) (by omega) next rfl
          refine ⟨n + 1, result, ?_, ?_⟩
          · rw [Nat.add_comm]
            exact .of_reaches (.again hbody .start) hreturns
          · calc
              n + 1 ≤ size next / cost + 1 := Nat.succ_le_succ hn
              _ = (size next + cost) / cost := (Nat.add_div_right _ hcost).symm
              _ ≤ size s / cost := Nat.div_le_div_right hless

end TChat.Lib
